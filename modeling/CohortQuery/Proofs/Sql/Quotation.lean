import CohortQuery.Proofs.Sql.Hole
import CohortQuery.Proofs.Text.Like
import CohortQuery.Store.Schema

/-!
# Quotations of a text

The literals of a text with what stands between them. A literal that is written character by
character, with a backslash before each quote and each backslash, is read back as it was, whatever
its characters are.
-/

set_option autoImplicit false

namespace CohortQuery.Sql

/-- A literal, behind the text that stands between it and the literal before it. -/
structure Quotation where
  before : String
  /-- What the literal stands for. -/
  value : String
  deriving DecidableEq, Repr

/-- The literals among the tokens and the text behind the last one. The first one stands behind
`seen` and the tokens before it. -/
def quotationsBehind (seen : List Char) : List Token → List Quotation × String
  | [] => ([], String.ofList seen)
  | .literal raw :: ts =>
    let (quoted, rest) := quotationsBehind [] ts
    (⟨String.ofList seen, String.ofList (decodeLiteral raw)⟩ :: quoted, rest)
  | t :: ts => quotationsBehind (seen ++ t.text) ts

/-- The literals of a text and the text behind the last one. A literal without an end is no text. -/
def quotations (s : String) : Option (List Quotation × String) :=
  (lex s).map (quotationsBehind [])

def endsIn (word s : String) : Bool :=
  (word ++ " ").toList.isSuffixOf s.toList

def literalBehind? (word s : String) : Option String := do
  let (quoted, _) ← quotations s
  (quoted.find? (endsIn word ·.before)).map Quotation.value

def Token.isLiteral : Token → Bool
  | literal _ => true
  | word _ | hole _ | mark _ => false

/-- Neither a literal nor a placeholder begins in the text. -/
structure Unquoted (s : String) : Prop where
  quote : Lacks '\'' s
  brace : Braceless s

theorem Unquoted.append {s t : String} (hs : Unquoted s) (ht : Unquoted t) : Unquoted (s ++ t) :=
  ⟨hs.quote.append ht.quote, hs.brace.append ht.brace⟩

/-- No literal was read, and nothing is open but a word. -/
def Lexer.Free (l : Lexer) : Prop :=
  (∀ t ∈ l.done, t.isLiteral = false) ∧ (l.mode = .between ∨ ∃ w, l.mode = .word w)

theorem begin_free {done : List Token} (hd : ∀ t ∈ done, t.isLiteral = false) {c : Char}
    (hc : c ≠ '\'' ∧ c ≠ '\x7b') : (Lexer.begin done c).Free := by
  unfold Lexer.begin
  rw [if_neg hc.1, if_neg hc.2]
  split
  next => exact ⟨hd, .inr ⟨_, rfl⟩⟩
  next => exact ⟨List.forall_mem_cons.mpr ⟨rfl, hd⟩, .inl rfl⟩

theorem feed_free {l : Lexer} (hl : l.Free) {c : Char} (hc : c ≠ '\'' ∧ c ≠ '\x7b') :
    (l.feed c).Free := by
  obtain ⟨done, mode⟩ := l
  obtain ⟨hd, rfl | ⟨w, rfl⟩⟩ := hl
  · exact begin_free hd hc
  · rw [Lexer.feed]
    split
    next => exact ⟨hd, .inr ⟨_, rfl⟩⟩
    next => exact begin_free (List.forall_mem_cons.mpr ⟨rfl, hd⟩) hc

theorem run_free {cs : List Char} (h : ∀ c ∈ cs, c ≠ '\'' ∧ c ≠ '\x7b') {l : Lexer} (hl : l.Free) :
    (l.run cs).Free := by
  induction cs generalizing l with
  | nil => exact hl
  | cons c cs ih =>
    obtain ⟨hc, hr⟩ := List.forall_mem_cons.mp h
    exact ih hr (feed_free hl hc)

theorem finish_free {l : Lexer} (hl : l.Free) :
    ∃ ts, l.finish = some ts ∧ ∀ t ∈ ts, t.isLiteral = false := by
  obtain ⟨done, mode⟩ := l
  obtain ⟨hd, rfl | ⟨w, rfl⟩⟩ := hl
  · exact ⟨done.reverse, rfl, fun t ht => hd t (List.mem_reverse.mp ht)⟩
  · refine ⟨(.word w :: done).reverse, rfl, fun t ht => ?_⟩
    rcases List.mem_cons.mp (List.mem_reverse.mp ht) with rfl | ht
    · rfl
    · exact hd t ht

theorem lex_unquoted {s : String} (h : Unquoted s) :
    ∃ ts, lex s = some ts ∧ ∀ t ∈ ts, t.isLiteral = false := by
  have start : Lexer.Free ⟨[], .between⟩ := ⟨List.forall_mem_nil _, .inl rfl⟩
  have plain : ∀ c ∈ s.toList, c ≠ '\'' ∧ c ≠ '\x7b' := fun c hc =>
    ⟨fun he => h.quote (he ▸ hc), fun he => h.brace (he ▸ hc)⟩
  exact finish_free (run_free plain start)

theorem quotations_behind_free {ts : List Token} (h : ∀ t ∈ ts, t.isLiteral = false)
    (seen : List Char) (us : List Token) :
    quotationsBehind seen (ts ++ us) = quotationsBehind (seen ++ spell ts) us := by
  induction ts generalizing seen with
  | nil => simp [spell]
  | cons t ts ih =>
    obtain ⟨ht, hr⟩ := List.forall_mem_cons.mp h
    have hs : seen ++ spell (t :: ts) = seen ++ t.text ++ spell ts := by simp [spell]
    rw [hs, ← ih hr]
    cases t with
    | literal raw => cases ht
    | word cs => rfl
    | hole cs => rfl
    | mark c => rfl

theorem unquoted_quotations {s : String} (h : Unquoted s) : quotations s = some ([], s) := by
  obtain ⟨ts, hs, hf⟩ := lex_unquoted h
  have hb := quotations_behind_free hf [] []
  rw [List.append_nil, List.nil_append, lex_spell s ts hs, quotationsBehind,
    String.ofList_toList] at hb
  rw [quotations, hs, Option.map_some, hb]

open Store (Schema.literal)
open Text.Like (guard_literal literalChar)

theorem run_written (done : List Token) (r cs rest : List Char) :
    Lexer.run ⟨done, .literal r⟩ (cs.flatMap literalChar ++ rest) =
      Lexer.run ⟨done, .literal (r ++ cs.flatMap literalChar)⟩ rest := by
  induction cs generalizing r with
  | nil => simp
  | cons c cs ih =>
    rw [List.flatMap_cons, List.append_assoc, ← List.append_assoc r, ← ih]
    unfold literalChar
    split
    next h => simp [Lexer.run, Lexer.feed]
    next h =>
      obtain ⟨hb, hq⟩ := not_or.mp h
      simp [Lexer.run, Lexer.feed, hb, hq]

theorem decode_written (cs : List Char) : decodeLiteral (cs.flatMap literalChar) = cs := by
  refine decode_escaped fun c _ => ?_
  unfold literalChar
  split
  next => exact .inl rfl
  next h => exact .inr ⟨rfl, (not_or.mp h).1⟩

theorem spells_written (cs : List Char) : Spells true
    ('\'' :: (cs.flatMap literalChar ++ ['\''])) [.literal (cs.flatMap literalChar)] := by
  intro done rest _
  have hs : Lexer.run ⟨done, .between⟩ ('\'' :: (cs.flatMap literalChar ++ ['\'']) ++ rest) =
      Lexer.run ⟨done, .literal []⟩ (cs.flatMap literalChar ++ '\'' :: rest) := by
    simp [Lexer.run, Lexer.feed, Lexer.begin, isWordChar]
  rw [hs, run_written]
  simp [Lexer.run, Lexer.feed]

/-- A literal behind a text without any is found as it was written, and what comes behind it is
read by itself. -/
theorem quotations_written {before rest : String} (hb : Unquoted before) (value : String)
    {quoted : List Quotation} {behind : String} (hr : quotations rest = some (quoted, behind)) :
    quotations (before ++ ("'" ++ (Schema.literal value ++ ("'" ++ rest)))) =
      some (⟨before, value⟩ :: quoted, behind) := by
  obtain ⟨ts, hs, hf⟩ := lex_unquoted hb
  obtain ⟨us, hu, hq⟩ := Option.map_eq_some_iff.mp hr
  have text : (before ++ ("'" ++ (Schema.literal value ++ ("'" ++ rest)))).toList =
      before.toList ++ ('\'' :: (value.toList.flatMap literalChar ++ ['\''])) ++ rest.toList := by
    simp [String.toList_append, Schema.literal, guard_literal]
  have apart : Apart ('\'' :: (value.toList.flatMap literalChar ++ ['\''])) := by
    rintro c ⟨⟩
    decide
  have front := spells_append (spells_lex hs) (spells_written value.toList)
    (.inr ⟨apart, List.cons_ne_nil _ _⟩)
  have whole := spells_append front (spells_lex hu) (.inl rfl)
  rw [← text] at whole
  rw [quotations, lex_spells whole, Option.map_some, List.append_assoc, quotations_behind_free hf,
    List.nil_append, lex_spell before ts hs, List.singleton_append, quotationsBehind, hq,
    decode_written, String.ofList_toList, String.ofList_toList]

theorem literal_chars (cs : List Char) (h : Unescaped cs) :
    Schema.literal (String.ofList cs) = String.ofList cs := by
  have hw (cs : List Char) (h : Unescaped cs) : cs.flatMap literalChar = cs := by
    induction cs with
    | nil => rfl
    | cons c cs ih =>
      obtain ⟨hc, ht⟩ := List.forall_mem_cons.mp h
      rw [List.flatMap_cons, ih ht, literalChar, if_neg (by simp [hc])]
      rfl
  rw [Schema.literal, guard_literal, String.toList_ofList, hw _ h]

theorem literal_append (s t : String) :
    Schema.literal (s ++ t) = Schema.literal s ++ Schema.literal t := by
  simp only [Schema.literal, guard_literal, String.toList_append, List.flatMap_append,
    String.ofList_append]

end CohortQuery.Sql
