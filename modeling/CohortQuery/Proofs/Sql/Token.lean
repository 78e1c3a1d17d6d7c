import Mathlib.Tactic.SplitIfs

/-!
# Tokens of a statement

A text is cut into words, string literals, placeholders and single characters. A single
quote opens and closes a literal; a backslash in it keeps the next character from closing
it. Nothing gets lost: the tokens written one after the other are the text again.
-/

set_option autoImplicit false

namespace CohortQuery.Sql

inductive Token where
  | word (cs : List Char)
  /-- What stands between the quotes, escapes included. -/
  | literal (raw : List Char)
  | hole (cs : List Char)
  | mark (c : Char)
  deriving DecidableEq, Repr

def isWordChar (c : Char) : Bool :=
  c.isAlphanum || c = '_'

def Wordlike (s : String) : Prop :=
  ∀ c ∈ s.toList, isWordChar c = true

instance (s : String) : Decidable (Wordlike s) :=
  List.decidableBAll _ _

def Token.text : Token → List Char
  | word cs => cs
  | literal raw => '\'' :: (raw ++ ['\''])
  | hole cs => '\x7b' :: (cs ++ ['\x7d'])
  | mark c => [c]

def spell (ts : List Token) : List Char :=
  ts.flatMap Token.text

/-- Between quotes the characters end at the second quote and stand for themselves. -/
def Unescaped (cs : List Char) : Prop :=
  ∀ c ∈ cs, c ≠ '\'' ∧ c ≠ '\\'

instance (cs : List Char) : Decidable (Unescaped cs) :=
  List.decidableBAll _ _

/-- What a literal stands for. -/
def decodeLiteral : List Char → List Char
  | '\\' :: c :: cs => c :: decodeLiteral cs
  | c :: cs => c :: decodeLiteral cs
  | [] => []

theorem decode_escaped {escape : Char → List Char} {cs : List Char}
    (h : ∀ c ∈ cs, escape c = ['\\', c] ∨ escape c = [c] ∧ c ≠ '\\') :
    decodeLiteral (cs.flatMap escape) = cs := by
  induction cs with
  | nil => rfl
  | cons c cs ih =>
    obtain ⟨hc, ht⟩ := List.forall_mem_cons.mp h
    rw [List.flatMap_cons]
    rcases hc with hc | ⟨hc, hb⟩
    · rw [hc]
      exact congrArg (c :: ·) (ih ht)
    · rw [hc, List.singleton_append, decodeLiteral, ih ht]
      exact fun _ _ he _ => hb he

theorem decode_literal_plain (cs : List Char) (h : Unescaped cs) :
    decodeLiteral cs = cs := by
  have plain := decode_escaped fun c hc => .inr ⟨rfl, (h c hc).2⟩
  rwa [List.flatMap_singleton'] at plain

/-- The token that is being read, as far as it was read. -/
inductive Mode where
  | between
  | word (seen : List Char)
  | literal (seen : List Char)
  | escape (seen : List Char)
  | hole (seen : List Char)

def Mode.text : Mode → List Char
  | between => []
  | word seen => seen
  | literal seen => '\'' :: seen
  | escape seen => '\'' :: (seen ++ ['\\'])
  | hole seen => '\x7b' :: seen

structure Lexer where
  /-- The finished tokens, the last one first. -/
  done : List Token
  mode : Mode

namespace Lexer

def begin (done : List Token) (c : Char) : Lexer :=
  if isWordChar c then ⟨done, .word [c]⟩
  else if c = '\'' then ⟨done, .literal []⟩
  else if c = '\x7b' then ⟨done, .hole []⟩
  else ⟨.mark c :: done, .between⟩

def feed : Lexer → Char → Lexer
  | ⟨done, .between⟩, c => begin done c
  | ⟨done, .word w⟩, c =>
    if isWordChar c then ⟨done, .word (w ++ [c])⟩ else begin (.word w :: done) c
  | ⟨done, .literal r⟩, c =>
    if c = '\'' then ⟨.literal r :: done, .between⟩
    else if c = '\\' then ⟨done, .escape r⟩
    else ⟨done, .literal (r ++ [c])⟩
  | ⟨done, .escape r⟩, c => ⟨done, .literal (r ++ ['\\', c])⟩
  | ⟨done, .hole r⟩, c =>
    if c = '\x7d' then ⟨.hole r :: done, .between⟩ else ⟨done, .hole (r ++ [c])⟩

def run (l : Lexer) (cs : List Char) : Lexer :=
  cs.foldl feed l

def finish : Lexer → Option (List Token)
  | ⟨done, .between⟩ => some done.reverse
  | ⟨done, .word w⟩ => some (.word w :: done).reverse
  | _ => none

def text (l : Lexer) : List Char :=
  spell l.done.reverse ++ l.mode.text

end Lexer

def lex (s : String) : Option (List Token) :=
  (Lexer.run ⟨[], .between⟩ s.toList).finish

theorem run_append (l : Lexer) (cs ds : List Char) : l.run (cs ++ ds) = (l.run cs).run ds :=
  List.foldl_append

theorem begin_text (done : List Token) (c : Char) :
    (Lexer.begin done c).text = spell done.reverse ++ [c] := by
  unfold Lexer.begin
  split_ifs with hw hq hb <;> simp_all [Lexer.text, Mode.text, spell, Token.text]

theorem feed_text (l : Lexer) (c : Char) : (l.feed c).text = l.text ++ [c] := by
  obtain ⟨done, mode⟩ := l
  cases mode with
  | between =>
    rw [Lexer.feed, begin_text]
    simp [Lexer.text, Mode.text]
  | word w =>
    by_cases h : isWordChar c
    · simp [Lexer.feed, h, Lexer.text, Mode.text]
    · rw [Lexer.feed, if_neg h, begin_text]
      simp [Lexer.text, Mode.text, spell, Token.text]
  | literal r =>
    by_cases hq : c = '\''
    · simp [Lexer.feed, hq, Lexer.text, Mode.text, spell, Token.text]
    · by_cases hb : c = '\\' <;> simp [Lexer.feed, hq, hb, Lexer.text, Mode.text]
  | escape r => simp [Lexer.feed, Lexer.text, Mode.text]
  | hole r =>
    by_cases h : c = '\x7d' <;> simp [Lexer.feed, h, Lexer.text, Mode.text, spell, Token.text]

theorem run_text (l : Lexer) (cs : List Char) : (l.run cs).text = l.text ++ cs := by
  induction cs generalizing l with
  | nil => simp [Lexer.run]
  | cons c cs ih =>
    have h := ih (l.feed c)
    rw [feed_text] at h
    simpa [Lexer.run] using h

theorem finish_text (l : Lexer) (ts : List Token) (h : l.finish = some ts) :
    spell ts = l.text := by
  obtain ⟨done, mode⟩ := l
  cases mode <;> simp only [Lexer.finish, Option.some.injEq, reduceCtorEq] at h
  · simp [← h, Lexer.text, Mode.text]
  · simp [← h, Lexer.text, Mode.text, spell, Token.text]

theorem lex_spell (s : String) (ts : List Token) (h : lex s = some ts) :
    spell ts = s.toList := by
  rw [finish_text _ ts h, run_text]
  rfl

def Apart (rest : List Char) : Prop :=
  ∀ c, rest.head? = some c → isWordChar c = false

/-- Between other tokens `cs` is read as `ts`. If it is not `closed`, its last word must
end with it. -/
def Spells (closed : Bool) (cs : List Char) (ts : List Token) : Prop :=
  ∀ done rest, closed = true ∨ Apart rest →
    (Lexer.run ⟨done, .between⟩ (cs ++ rest)).finish =
      (Lexer.run ⟨ts.reverse ++ done, .between⟩ rest).finish

theorem spells_open {cs : List Char} {ts : List Token} (h : Spells true cs ts) (b : Bool) :
    Spells b cs ts :=
  fun done rest _ => h done rest (.inl rfl)

theorem spells_append {a b : Bool} {cs ds : List Char} {ts us : List Token}
    (hc : Spells a cs ts) (hd : Spells b ds us)
    (hm : a = true ∨ (Apart ds ∧ ds ≠ [])) : Spells b (cs ++ ds) (ts ++ us) := by
  intro done rest hr
  have ha : a = true ∨ Apart (ds ++ rest) := by
    rcases hm with ha | ⟨hap, hne⟩
    · exact .inl ha
    · right
      cases ds with
      | nil => exact absurd rfl hne
      | cons d ds => simpa [Apart] using hap
  rw [List.append_assoc, hc done (ds ++ rest) ha, hd _ rest hr]
  simp

theorem lex_spells {b : Bool} {s : String} {ts : List Token} (h : Spells b s.toList ts) :
    lex s = some ts := by
  have hn : Apart [] := by simp [Apart]
  have hr := h [] [] (.inr hn)
  simpa [lex, Lexer.run, Lexer.finish] using hr

theorem finish_word (done : List Token) (w rest : List Char) (h : Apart rest) :
    (Lexer.run ⟨done, .word w⟩ rest).finish =
      (Lexer.run ⟨.word w :: done, .between⟩ rest).finish := by
  cases rest with
  | nil => rfl
  | cons c cs =>
    have hc : isWordChar c = false := h c rfl
    simp [Lexer.run, Lexer.feed, hc]

theorem begin_behind (done before : List Token) (c : Char) :
    Lexer.begin (done ++ before) c =
      ⟨(Lexer.begin done c).done ++ before, (Lexer.begin done c).mode⟩ := by
  unfold Lexer.begin
  split_ifs <;> rfl

theorem feed_behind (l : Lexer) (before : List Token) (c : Char) :
    Lexer.feed ⟨l.done ++ before, l.mode⟩ c =
      ⟨(l.feed c).done ++ before, (l.feed c).mode⟩ := by
  obtain ⟨done, mode⟩ := l
  cases mode with
  | between => exact begin_behind done before c
  | word w =>
    simp only [Lexer.feed]
    split_ifs
    · rfl
    · exact begin_behind (.word w :: done) before c
  | literal r =>
    simp only [Lexer.feed]
    split_ifs <;> rfl
  | escape r => rfl
  | hole r =>
    simp only [Lexer.feed]
    split_ifs <;> rfl

theorem run_behind (l : Lexer) (before : List Token) (cs : List Char) :
    Lexer.run ⟨l.done ++ before, l.mode⟩ cs =
      ⟨(l.run cs).done ++ before, (l.run cs).mode⟩ := by
  induction cs generalizing l with
  | nil => rfl
  | cons c cs ih =>
    have hc : Lexer.run ⟨l.done ++ before, l.mode⟩ (c :: cs) =
        (Lexer.feed ⟨l.done ++ before, l.mode⟩ c).run cs := rfl
    rw [hc, feed_behind, ih (l.feed c)]
    rfl

theorem spells_lex {s : String} {ts : List Token} (h : lex s = some ts) :
    Spells false s.toList ts := by
  intro done rest hr
  have ha : Apart rest := by simpa using hr
  have hb := run_behind ⟨[], .between⟩ done s.toList
  rw [lex] at h
  generalize Lexer.run ⟨[], .between⟩ s.toList = l at h hb
  obtain ⟨before, mode⟩ := l
  rw [List.nil_append] at hb
  rw [run_append, hb]
  cases mode <;> simp only [Lexer.finish, Option.some.injEq, reduceCtorEq] at h
  · simp [← h]
  · rw [finish_word _ _ rest ha]
    simp [← h]

deriving instance DecidableEq for Mode, Lexer

/-- No token is left open behind a text that is read to its end. -/
theorem spells_closed {cs : List Char} {ts : List Token}
    (h : Lexer.run ⟨[], .between⟩ cs = ⟨ts.reverse, .between⟩) : Spells true cs ts := by
  intro done rest _
  have hb := run_behind ⟨[], .between⟩ done cs
  rw [h, List.nil_append] at hb
  rw [run_append, hb]

theorem run_word (done : List Token) (w cs rest : List Char)
    (h : ∀ c ∈ cs, isWordChar c = true) :
    Lexer.run ⟨done, .word w⟩ (cs ++ rest) = Lexer.run ⟨done, .word (w ++ cs)⟩ rest := by
  induction cs generalizing w with
  | nil => simp
  | cons c cs ih =>
    have hc : isWordChar c = true := h c (by simp)
    have ht := ih (w ++ [c]) (fun d hd => h d (by simp [hd]))
    simpa [Lexer.run, Lexer.feed, hc] using ht

theorem run_literal (done : List Token) (r cs rest : List Char) (h : Unescaped cs) :
    Lexer.run ⟨done, .literal r⟩ (cs ++ rest) = Lexer.run ⟨done, .literal (r ++ cs)⟩ rest := by
  induction cs generalizing r with
  | nil => simp
  | cons c cs ih =>
    have hc := h c (by simp)
    have ht := ih (r ++ [c]) (fun d hd => h d (by simp [hd]))
    simpa [Lexer.run, Lexer.feed, hc.1, hc.2] using ht

theorem run_hole (done : List Token) (r cs rest : List Char) (h : ∀ c ∈ cs, c ≠ '\x7d') :
    Lexer.run ⟨done, .hole r⟩ (cs ++ rest) = Lexer.run ⟨done, .hole (r ++ cs)⟩ rest := by
  induction cs generalizing r with
  | nil => simp
  | cons c cs ih =>
    have hc : c ≠ '\x7d' := h c (by simp)
    have ht := ih (r ++ [c]) (fun d hd => h d (by simp [hd]))
    simpa [Lexer.run, Lexer.feed, hc] using ht

theorem spells_literal (cs : List Char) (h : Unescaped cs) :
    Spells true ('\'' :: (cs ++ ['\''])) [.literal cs] := by
  intro done rest _
  have hr := run_literal done [] cs ('\'' :: rest) h
  have hs : Lexer.run ⟨done, .between⟩ ('\'' :: (cs ++ ['\'']) ++ rest) =
      Lexer.run ⟨done, .literal []⟩ (cs ++ '\'' :: rest) := by
    simp [Lexer.run, Lexer.feed, Lexer.begin, isWordChar]
  rw [hs, hr]
  simp [Lexer.run, Lexer.feed]

theorem spells_hole (cs : List Char) (h : ∀ c ∈ cs, c ≠ '\x7d') :
    Spells true ('\x7b' :: (cs ++ ['\x7d'])) [.hole cs] := by
  intro done rest _
  have hr := run_hole done [] cs ('\x7d' :: rest) h
  have hs : Lexer.run ⟨done, .between⟩ ('\x7b' :: (cs ++ ['\x7d']) ++ rest) =
      Lexer.run ⟨done, .hole []⟩ (cs ++ '\x7d' :: rest) := by
    simp [Lexer.run, Lexer.feed, Lexer.begin, isWordChar]
  rw [hs, hr]
  simp [Lexer.run, Lexer.feed]

end CohortQuery.Sql
