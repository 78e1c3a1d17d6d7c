import CohortQuery.Proofs.Decimal.Reading
import CohortQuery.Proofs.Json.Compact

/-!
# Reading what is shown

An indented object is read by its quotes and braces: blanks, commas and colons only separate.
Decimals are read to the nearest number, which the machine that reads definitions may miss by a
little, and so a value comes back as it was shown.
-/

set_option autoImplicit false

namespace CohortQuery.Json

open CohortQuery.Text (isDigit)

namespace Shown

def isBlank (c : Char) : Bool :=
  isSpace c || c = ',' || c = ':'

def isNumeric (c : Char) : Bool :=
  isDigit c || c = '-' || c = '+' || c = '.' || c = 'e'

def number? (cs : List Char) : Option Number :=
  match Text.readSigned cs with
  | some i => some (.integer i)
  | none => (Decimal.readNumber cs).map .real

def unquote? (cs : List Char) : Option (String × List Char) :=
  match cutText ⟨none, none, []⟩ .start cs with
  | ⟨.text (.ok s), _, rest⟩ => some (s, rest)
  | _ => none

mutual

/-- The first value of a text, and what is behind it. Every turn takes a character at least. -/
def value? : (turns : Nat) → List Char → Option (Json × List Char)
  | 0, _ => none
  | turns + 1, cs =>
    match cs.dropWhile isBlank with
    | [] => none
    | c :: rest =>
      if c = '"' then (unquote? rest).map fun (s, rest) => (.text s, rest)
      else if c = '\x7b' then (fields? turns rest).map fun (fields, rest) => (.object fields, rest)
      else (number? ((c :: rest).takeWhile isNumeric)).map fun n =>
        (.number n, (c :: rest).dropWhile isNumeric)

def fields? : (turns : Nat) → List Char → Option (Fields × List Char)
  | 0, _ => none
  | turns + 1, cs =>
    match cs.dropWhile isBlank with
    | [] => none
    | c :: rest =>
      if c = '\x7d' then some ([], rest)
      else if c = '"' then do
        let (key, rest) ← unquote? rest
        let (v, rest) ← value? turns rest
        let (fields, rest) ← fields? turns rest
        return ((key, v) :: fields, rest)
      else none

end

def read? (s : String) : Option Json :=
  match value? s.toList.length s.toList with
  | some (v, rest) => if rest.all isBlank then some v else none
  | none => none

end Shown

def Number.Exact : Number → Prop
  | .integer _ => True
  | .real x => x.Exact

/-- Objects of exact numbers, of texts and of such objects. -/
inductive Exact : Json → Prop where
  | number {n : Number} (h : n.Exact) : Exact (.number n)
  | text (s : String) : Exact (.text s)
  | object {fields : Fields} (h : ∀ f ∈ fields, Exact f.2) : Exact (.object fields)

namespace Shown

theorem unsigned_marked {cs : List Char} (h : '.' ∈ cs ∨ 'e' ∈ cs) :
    Text.readNumeral cs = none := by
  unfold Text.readNumeral
  rw [if_neg]
  rw [Bool.and_eq_true, List.all_eq_true, not_and]
  intro _ digits
  rcases h with h | h <;> exact absurd (digits _ h) (by decide)

theorem signed_marked {cs : List Char} (h : '.' ∈ cs ∨ 'e' ∈ cs) : Text.readSigned cs = none := by
  unfold Text.readSigned
  split
  next ds =>
    have hd : '.' ∈ ds ∨ 'e' ∈ ds := by simpa using h
    rw [unsigned_marked hd]
    rfl
  next =>
    rw [unsigned_marked h]
    rfl

theorem number_shown {n : Number} (h : n.Exact) : number? n.render.toList = some n ∧
    n.render.toList ≠ [] ∧ ∀ c ∈ n.render.toList, isNumeric c = true := by
  cases n with
  | integer i =>
    refine ⟨?_, ?_, fun c hc => ?_⟩
    · rw [number?, Number.render, Text.signed_read]
    · exact fun he => Text.signed_nonempty i (String.toList_inj.mp he)
    · rcases Text.signed_chars i c hc with hd | rfl
      · simp [isNumeric, hd]
      · simp [isNumeric]
  | real x =>
    obtain ⟨s, hs, read, mark, numeric⟩ := Binary64.marked_read h
    have render : (Number.real x).render = s := by rw [Number.render, hs, Option.getD_some]
    rw [render]
    refine ⟨?_, ?_, fun c hc => ?_⟩
    · rw [number?, signed_marked mark, read]
      rfl
    · rintro he
      rw [he] at mark
      simp at mark
    · rcases numeric c hc with hd | rfl | rfl | rfl | rfl
      · simp [isNumeric, hd]
      all_goals simp [isNumeric]

theorem quoted_shown (s : String) (rest : List Char) :
    unquote? (s.toList.flatMap escapeChar ++ '"' :: rest) = some (s, rest) := by
  obtain ⟨stop, h⟩ := cut_escapes s.toList [] .start rest
  rw [unquote?, h]
  simp

def Apart (rest : List Char) : Prop :=
  ∀ c ∈ rest.head?, isNumeric c = false

theorem blank_dropped {blank : List Char} (h : ∀ c ∈ blank, isBlank c = true) {c : Char}
    (hc : isBlank c = false) (rest : List Char) :
    (blank ++ c :: rest).dropWhile isBlank = c :: rest := by
  rw [List.dropWhile_append_of_pos h, List.dropWhile_cons_of_neg (by simp [hc])]

theorem line_blank (level : Nat) : ∀ c ∈ (lineBreak level).toList, isBlank c = true := by
  intro c hc
  rw [lineBreak, String.toList_ofList, List.mem_cons, List.mem_replicate] at hc
  rcases hc with rfl | ⟨-, rfl⟩ <;> decide

theorem numeric_solid {c : Char} (h : isNumeric c = true) :
    isBlank c = false ∧ c ≠ '"' ∧ c ≠ '\x7b' := by
  refine ⟨?_, ?_, ?_⟩
  · by_contra hb
    simp only [isBlank, isSpace, Bool.not_eq_false, Bool.or_eq_true, decide_eq_true_eq] at hb
    rcases hb with ((((rfl | rfl) | rfl) | rfl) | rfl) | rfl <;> exact absurd h (by decide)
  all_goals
    rintro rfl
    exact absurd h (by decide)

/-- The characters that come back as the value, from any blanks before them and whatever comes
behind. -/
def Returns (cs : List Char) (v : Json) : Prop :=
  ∀ (turns : Nat) (blank rest : List Char), (∀ c ∈ blank, isBlank c = true) → Apart rest →
    cs.length ≤ turns → value? turns (blank ++ cs ++ rest) = some (v, rest)

theorem apart_blank {blank : List Char} (h : ∀ c ∈ blank, isBlank c = true) {c : Char}
    (hc : isNumeric c = false) (rest : List Char) : Apart (blank ++ c :: rest) := by
  cases blank with
  | nil => simpa [Apart] using hc
  | cons b blank =>
    have hb : isNumeric b = false := by
      by_contra hn
      have solid := (numeric_solid (by simpa using hn)).1
      rw [h b List.mem_cons_self] at solid
      cases solid
    simpa [Apart] using hb

theorem number_returns {n : Number} (h : n.Exact) : Returns n.render.toList (.number n) := by
  intro turns blank rest hb ha ht
  obtain ⟨read, nonempty, numeric⟩ := number_shown h
  generalize n.render.toList = cs at *
  obtain ⟨c, ds, rfl⟩ := List.exists_cons_of_ne_nil nonempty
  obtain ⟨turns, rfl⟩ : ∃ t, turns = t + 1 := ⟨turns - 1, by simp at ht; omega⟩
  obtain ⟨solid, quote, brace⟩ := numeric_solid (numeric c List.mem_cons_self)
  have stop : rest.takeWhile isNumeric = [] ∧ rest.dropWhile isNumeric = rest := by
    cases rest with
    | nil => exact ⟨rfl, rfl⟩
    | cons d rest =>
      have hd : ¬isNumeric d = true := by simp [ha d rfl]
      exact ⟨List.takeWhile_cons_of_neg hd, List.dropWhile_cons_of_neg hd⟩
  rw [value?, List.append_assoc, List.cons_append, blank_dropped hb solid]
  dsimp only
  rw [if_neg quote, if_neg brace, ← List.cons_append, List.takeWhile_append_of_pos numeric,
    List.dropWhile_append_of_pos numeric, stop.1, stop.2, List.append_nil, read]
  rfl

theorem text_returns (s : String) : Returns (quote s).toList (.text s) := by
  intro turns blank rest hb _ ht
  rw [List.append_assoc, quote_chars]
  obtain ⟨turns, rfl⟩ : ∃ t, turns = t + 1 := by
    have hq := congrArg List.length (quote_chars s [])
    simp at hq
    exact ⟨turns - 1, by omega⟩
  rw [value?, blank_dropped hb (by decide)]
  dsimp only
  rw [if_pos rfl, quoted_shown]
  rfl

theorem brace_closes {turns : Nat} (ht : 0 < turns) {blank : List Char}
    (hb : ∀ c ∈ blank, isBlank c = true) (rest : List Char) :
    fields? turns (blank ++ '\x7d' :: rest) = some ([], rest) := by
  obtain ⟨turns, rfl⟩ : ∃ t, turns = t + 1 := ⟨turns - 1, by omega⟩
  rw [fields?, blank_dropped hb (by decide)]
  exact if_pos rfl

theorem field_taken {level turns : Nat} {key : String} {v : Json}
    (hv : Returns (indentedAt level v).toList v) {blank : List Char}
    (hb : ∀ c ∈ blank, isBlank c = true) {rest : List Char} (ha : Apart rest)
    (ht : (indentedAt level v).toList.length ≤ turns) :
    fields? (turns + 1) (blank ++ ((quote key ++ ": " ++ indentedAt level v).toList ++ rest)) =
      (fields? turns rest).map fun (fields, rest) => ((key, v) :: fields, rest) := by
  have colon : ∀ c ∈ ": ".toList, isBlank c = true := by simp [isBlank, isSpace]
  have value := hv turns ": ".toList rest colon ha ht
  rw [String.toList_append, String.toList_append, List.append_assoc, List.append_assoc,
    quote_chars, fields?, blank_dropped hb (by decide)]
  dsimp only
  rw [if_neg (by decide), if_pos rfl, quoted_shown]
  rw [List.append_assoc] at value
  simp only [Option.bind_eq_bind, Option.bind_some, value]
  cases fields? turns rest <;> rfl

theorem fields_return {level : Nat} {fields : Fields} (hne : fields ≠ [])
    (h : ∀ f ∈ fields, ∀ level, Returns (indentedAt level f.2).toList f.2) {turns : Nat}
    {blank close : List Char} (hb : ∀ c ∈ blank, isBlank c = true)
    (hc : ∀ c ∈ close, isBlank c = true) (rest : List Char)
    (ht : (indentedFields level fields).toList.length < turns) :
    fields? turns (blank ++ ((indentedFields level fields).toList ++ (close ++ '\x7d' :: rest))) =
      some (fields, rest) := by
  induction fields generalizing turns blank with
  | nil => exact absurd rfl hne
  | cons f fields ih =>
    obtain ⟨key, v⟩ := f
    obtain ⟨hv, hr⟩ := List.forall_mem_cons.mp h
    have hv : Returns (indentedAt level v).toList v := hv level
    have colon : ": ".toList.length = 2 := rfl
    obtain ⟨turns, rfl⟩ : ∃ t, turns = t + 1 := ⟨turns - 1, by omega⟩
    cases fields with
    | nil =>
      rw [indentedFields] at ht ⊢
      simp only [String.toList_append, List.length_append] at ht
      rw [field_taken hv hb (apart_blank hc (by decide) rest) (by omega),
        brace_closes (by omega) hc]
      rfl
    | cons g fields =>
      have separated : ∀ c ∈ ',' :: (lineBreak level).toList, isBlank c = true :=
        List.forall_mem_cons.mpr ⟨by decide, line_blank level⟩
      have comma : ",".toList = [','] := rfl
      have chars (tail : List Char) :
          (indentedFields level ((key, v) :: g :: fields)).toList ++ tail =
            (quote key ++ ": " ++ indentedAt level v).toList ++
              ((',' :: (lineBreak level).toList) ++
                ((indentedFields level (g :: fields)).toList ++ tail)) := by
        simp [indentedFields, String.toList_append, comma]
      have length := congrArg List.length (chars [])
      simp only [List.append_nil, List.length_append, List.length_cons, String.toList_append]
        at length
      have apart (tail : List Char) : Apart ((',' :: (lineBreak level).toList) ++ tail) := by
        simp [Apart, isNumeric, isDigit]
      rw [chars, field_taken hv hb (apart _) (by omega),
        ih (by simp) hr separated (by omega)]
      rfl

theorem object_returns {level : Nat} {fields : Fields}
    (h : ∀ f ∈ fields, ∀ level, Returns (indentedAt level f.2).toList f.2) :
    Returns (indentedAt level (.object fields)).toList (.object fields) := by
  intro turns blank rest hb _ ht
  have opened (turns : Nat) (cs : List Char) : value? (turns + 1) (blank ++ '\x7b' :: cs) =
      (fields? turns cs).map fun (fields, rest) => (.object fields, rest) := by
    rw [value?, blank_dropped hb (by decide)]
    exact (if_neg (by decide)).trans (if_pos rfl)
  have left : "\x7b".toList = ['\x7b'] := rfl
  have right : "\x7d".toList = ['\x7d'] := rfl
  cases fields with
  | nil =>
    have chars : (indentedAt level (.object [])).toList = ['\x7b', '\x7d'] := by
      rw [indentedAt]
      rfl
    rw [chars] at ht ⊢
    obtain ⟨turns, rfl⟩ : ∃ t, turns = t + 1 := ⟨turns - 1, by simp at ht; omega⟩
    have ht : 0 < turns := by simp at ht; omega
    have closes : fields? turns (['\x7d'] ++ rest) = some ([], rest) :=
      brace_closes ht (List.forall_mem_nil _) rest
    rw [List.append_assoc, List.cons_append, opened, closes]
    rfl
  | cons f fields =>
    have chars : (indentedAt level (.object (f :: fields))).toList = '\x7b' ::
        ((lineBreak (level + 1)).toList ++ ((indentedFields (level + 1) (f :: fields)).toList ++
          ((lineBreak level).toList ++ ['\x7d']))) := by
      simp [indentedAt, String.toList_append, left, right]
    rw [chars] at ht ⊢
    simp only [List.length_cons, List.length_append] at ht
    obtain ⟨turns, rfl⟩ : ∃ t, turns = t + 1 := ⟨turns - 1, by omega⟩
    have enough : (indentedFields (level + 1) (f :: fields)).toList.length < turns := by omega
    have taken := fields_return (by simp) h (line_blank (level + 1)) (line_blank level) rest enough
    simp only [List.append_assoc, List.cons_append, List.nil_append]
    rw [opened, taken]
    rfl

theorem exact_returns {v : Json} (h : v.Exact) (level : Nat) :
    Returns (indentedAt level v).toList v := by
  induction h generalizing level with
  | number h => exact number_returns h
  | text s => exact text_returns s
  | object _ ih => exact object_returns ih

/-- What is shown is read as the value that was shown. -/
theorem read_shown {v : Json} (h : v.Exact) : read? (indented v ++ "\n") = some v := by
  have value : value? (indented v ++ "\n").toList.length (indented v ++ "\n").toList =
      some (v, ['\n']) := by
    rw [String.toList_append]
    exact exact_returns h 0 _ [] _ (List.forall_mem_nil _) (by simp [Apart, isNumeric, isDigit])
      (by simp [indented])
  rw [read?, value]
  rfl

end Shown

end CohortQuery.Json
