import CohortQuery.Proofs.Json.Legible
import CohortQuery.Proofs.Text.Numeral
import CohortQuery.Property.Stored

/-!
# Reading what was written

A value that could be read is read again from its compact text, if no number of it is a real one.
The machine goes over the text of a value from any place in front of it to the place behind it,
whatever follows.
-/

set_option autoImplicit false

namespace CohortQuery.Json

open CohortQuery.Text (isDigit ofDigits)

mutual

def isWhole : Json → Bool
  | .number (.real _) => false
  | .list items => itemsWhole items
  | .object fields => fieldsWhole fields
  | .null | .bool _ | .number (.integer _) | .text _ => true

def itemsWhole : List Json → Bool
  | [] => true
  | v :: vs => v.isWhole && itemsWhole vs

def fieldsWhole : List (String × Json) → Bool
  | [] => true
  | (_, v) :: fs => v.isWhole && fieldsWhole fs

end

theorem whole_list (items : List Json) :
    isWhole (.list items) = true ↔ ∀ v ∈ items, v.isWhole = true := by
  rw [isWhole]
  induction items with
  | nil => simp [itemsWhole]
  | cons v vs ih => rw [itemsWhole, Bool.and_eq_true, ih, List.forall_mem_cons]

theorem whole_object (fields : Fields) :
    isWhole (.object fields) = true ↔ ∀ f ∈ fields, f.2.isWhole = true := by
  rw [isWhole]
  induction fields with
  | nil => simp [fieldsWhole]
  | cons f fs ih => rw [fieldsWhole, Bool.and_eq_true, ih, List.forall_mem_cons]

theorem cut_quote (acc : List Char) (p : Position) (rest : List Char) :
    cutText ⟨none, none, acc⟩ p ('"' :: rest) =
      ⟨.text (.ok (String.ofList acc.reverse)), p.past '"', rest⟩ := by
  rw [cutText.eq_def]
  exact if_pos rfl

theorem control_quad {n : Nat} (h : n < 32) :
    hexQuad '0' '0' (hexDigit (n / 16)) (hexDigit (n % 16)) = some n := by
  revert n
  decide

theorem cut_simple (acc : List Char) {e x : Char} (hu : e ≠ 'u') (he : simpleEscape e = some x)
    (p : Position) (rest : List Char) :
    cutText ⟨none, none, acc⟩ p ('\\' :: e :: rest) =
      cutText ⟨none, none, x :: acc⟩ ((p.past '\\').past e) rest := by
  rw [cutText.eq_def]
  dsimp only
  rw [if_neg (by decide), if_pos rfl, if_neg hu, he]
  rfl

theorem cut_unit (acc : List Char) {c : Char} (hc : c.toNat < 32) (p : Position)
    (rest : List Char) :
    ∃ q, cutText ⟨none, none, acc⟩ p
        ('\\' :: 'u' :: '0' :: '0' :: hexDigit (c.toNat / 16) :: hexDigit (c.toNat % 16) :: rest) =
      cutText ⟨none, none, c :: acc⟩ q rest := by
  have hl : TextScan.isLow c.toNat = false := by
    rw [TextScan.isLow, decide_eq_false (by omega), Bool.false_and]
  have hh : TextScan.isHigh c.toNat = false := by
    rw [TextScan.isHigh, decide_eq_false (by omega), Bool.false_and]
  have hs (q : Position) :
      TextScan.unit ⟨none, none, acc⟩ c.toNat q = ⟨none, none, c :: acc⟩ := by
    simp only [TextScan.unit, hl, hh, TextScan.push, Bool.false_eq_true, if_false,
      Char.ofNat_toNat]
  rw [cutText.eq_def]
  dsimp only
  rw [if_neg (by decide), if_pos rfl, if_pos rfl, control_quad hc]
  dsimp only
  rw [hs]
  exact ⟨_, rfl⟩

theorem cut_plain (acc : List Char) {c : Char} (hq : c ≠ '"') (hb : c ≠ '\\')
    (hc : 32 ≤ c.toNat) (p : Position) (rest : List Char) :
    cutText ⟨none, none, acc⟩ p (c :: rest) = cutText ⟨none, none, c :: acc⟩ (p.past c) rest := by
  rw [cutText.eq_def]
  dsimp only
  rw [if_neg hq, if_neg hb, if_neg (by omega)]
  rfl

theorem cut_escape (acc : List Char) (c : Char) (p : Position) (cs : List Char) :
    ∃ q, cutText ⟨none, none, acc⟩ p (escapeChar c ++ cs) =
      cutText ⟨none, none, c :: acc⟩ q cs := by
  unfold escapeChar
  split
  next hq =>
    subst hq
    exact ⟨_, cut_simple acc (e := '"') (by decide) rfl p cs⟩
  split
  next hb =>
    subst hb
    exact ⟨_, cut_simple acc (e := '\\') (by decide) rfl p cs⟩
  split
  next h8 =>
    obtain rfl : c = Char.ofNat 8 := by rw [← h8, Char.ofNat_toNat]
    exact ⟨_, cut_simple acc (e := 'b') (by decide) rfl p cs⟩
  split
  next h12 =>
    obtain rfl : c = Char.ofNat 12 := by rw [← h12, Char.ofNat_toNat]
    exact ⟨_, cut_simple acc (e := 'f') (by decide) rfl p cs⟩
  split
  next hn =>
    subst hn
    exact ⟨_, cut_simple acc (e := 'n') (by decide) rfl p cs⟩
  split
  next hr =>
    subst hr
    exact ⟨_, cut_simple acc (e := 'r') (by decide) rfl p cs⟩
  split
  next ht =>
    subst ht
    exact ⟨_, cut_simple acc (e := 't') (by decide) rfl p cs⟩
  split
  next hc => exact cut_unit acc hc p cs
  next hc => exact ⟨_, cut_plain acc ‹c ≠ '"'› ‹c ≠ '\\'› (Nat.le_of_not_lt hc) p cs⟩

theorem cut_escapes (s acc : List Char) (p : Position) (rest : List Char) :
    ∃ stop, cutText ⟨none, none, acc⟩ p (s.flatMap escapeChar ++ '"' :: rest) =
      ⟨.text (.ok (String.ofList (acc.reverse ++ s))), stop, rest⟩ := by
  induction s generalizing acc p with
  | nil =>
    rw [List.append_nil]
    exact ⟨_, cut_quote acc p rest⟩
  | cons c s ih =>
    obtain ⟨q, hq⟩ := cut_escape acc c p (s.flatMap escapeChar ++ '"' :: rest)
    obtain ⟨stop, hs⟩ := ih (c :: acc) q
    refine ⟨stop, ?_⟩
    rw [List.flatMap_cons, List.append_assoc, hq, hs, List.reverse_cons, List.append_assoc]
    rfl

/-- From any place the lexeme is cut off, and `rest` is left. -/
def Cuts (c : Char) (cs : List Char) (l : Lexeme) (rest : List Char) : Prop :=
  ∀ p, ∃ stop, cutLexeme p c cs = ⟨l, stop, rest⟩

theorem quote_chars (s : String) (rest : List Char) :
    (quote s).toList ++ rest = '"' :: (s.toList.flatMap escapeChar ++ '"' :: rest) := by
  simp [quote, quoteChars]

theorem cuts_quoted (s : String) (rest : List Char) :
    Cuts '"' (s.toList.flatMap escapeChar ++ '"' :: rest) (.text (.ok s)) rest := by
  intro p
  obtain ⟨stop, h⟩ := cut_escapes s.toList [] (p.past '"') rest
  rw [List.reverse_nil, List.nil_append, String.ofList_toList] at h
  exact ⟨stop, h⟩

def Ends (rest : List Char) : Prop :=
  ∀ c ∈ rest.head?, isDigit c = false ∧ c ≠ '.' ∧ c ≠ 'e' ∧ c ≠ 'E'

theorem ends_before {c : Char} (h : isDigit c = false ∧ c ≠ '.' ∧ c ≠ 'e' ∧ c ≠ 'E')
    (rest : List Char) : Ends (c :: rest) := by
  rintro _ ⟨⟩
  exact h

/-- A numeral of more than one digit does not begin with zero, since it would be too long. -/
theorem numeral_front (n : Nat) (d : Char) (ds : List Char) :
    Nat.toDigits 10 n ≠ '0' :: d :: ds := by
  intro h
  have hd : ∀ c ∈ d :: ds, isDigit c = true := fun c hc =>
    Text.numeral_digits n c (h ▸ List.mem_cons_of_mem _ hc)
  have hv := Text.numeral_value n
  rw [h, Text.of_digits_cons] at hv
  have hlt : n < 10 ^ (d :: ds).length := by
    rw [← hv]
    simpa [Text.digitValue] using Text.of_digits_lt hd
  have hl := (Nat.length_toDigits_le_iff (by omega) (by simp)).mpr hlt
  rw [h] at hl
  simp at hl

theorem integer_of {i : Int} (h : (Number.integer i).InRange) :
    integerOf (decide (i < 0)) i.natAbs = some i := by
  obtain ⟨hl, hu⟩ := h
  unfold integerOf
  by_cases hi : i < 0
  · rw [if_pos (by simpa using hi), if_pos (by omega)]
    congr 1
    omega
  · rw [if_neg (by simpa using hi), if_pos (by omega)]
    congr 1
    omega

theorem cut_whole {negative : Bool} {ds : List Char} {i : Int}
    (hi : integerOf negative (ofDigits ds) = some i) (p : Position) {rest : List Char}
    (h : Ends rest) :
    cutFraction negative ds p rest = ⟨.number (.ok (.integer i)), p, rest⟩ := by
  have hv : Numeral.value ⟨negative, ds, none, none⟩ p = .ok (.integer i) := by
    simp [Numeral.value, hi]
  unfold cutFraction
  split
  next => exact absurd rfl (h '.' rfl).2.1
  next =>
    cases rest with
    | nil => rw [cutExponent, hv]
    | cons c cs =>
      obtain ⟨-, -, he, hE⟩ := h c rfl
      rw [cutExponent, if_neg (by simp [he, hE]), hv]

theorem cut_numeral {negative : Bool} {n : Nat} {i : Int} (hi : integerOf negative n = some i)
    (p : Position) {rest : List Char} (h : Ends rest) :
    ∃ stop, cutUnsigned negative p (Nat.toDigits 10 n ++ rest) =
      ⟨.number (.ok (.integer i)), stop, rest⟩ := by
  have ht : rest.takeWhile isDigit = [] := by
    cases rest with
    | nil => rfl
    | cons c cs => exact List.takeWhile_cons_of_neg (by simp [(h c rfl).1])
  have hr : rest.dropWhile isDigit = rest := by
    cases rest with
    | nil => rfl
    | cons c cs => exact List.dropWhile_cons_of_neg (by simp [(h c rfl).1])
  unfold cutUnsigned
  dsimp only
  rw [List.takeWhile_append_of_pos (Text.numeral_digits n), ht, List.append_nil,
    List.dropWhile_append_of_pos (Text.numeral_digits n), hr]
  split
  next he => exact absurd he Nat.toDigits_ne_nil
  next he => exact absurd he (numeral_front n _ _)
  next =>
    refine ⟨_, cut_whole ?_ _ h⟩
    rw [Text.numeral_value]
    exact hi

theorem digit_ne {c k : Char} (hc : isDigit c = true) (hk : isDigit k = false) : c ≠ k := by
  rintro rfl
  rw [hk] at hc
  cases hc

theorem cut_digit {c : Char} (hc : isDigit c = true) (p : Position) (cs : List Char) :
    cutLexeme p c cs = cutUnsigned false p (c :: cs) := by
  unfold cutLexeme
  dsimp only
  iterate 11 rw [if_neg (digit_ne hc rfl)]
  exact if_pos hc

theorem digit_solid {c : Char} (hc : isDigit c = true) : isSpace c = false := by
  simp only [isSpace, digit_ne hc (k := ' ') rfl, digit_ne hc (k := '\n') rfl,
    digit_ne hc (k := '\t') rfl, digit_ne hc (k := '\r') rfl, decide_false, Bool.or_self]

theorem cuts_integer {i : Int} (hi : (Number.integer i).InRange) {rest : List Char}
    (h : Ends rest) : ∃ c cs, (Text.signedNumeral i).toList ++ rest = c :: cs ∧
      isSpace c = false ∧ rest.length ≤ cs.length ∧
      Cuts c cs (.number (.ok (.integer i))) rest := by
  have hv := integer_of hi
  unfold Text.signedNumeral Text.numeral
  by_cases hn : i < 0
  · rw [decide_eq_true hn] at hv
    rw [if_pos hn]
    refine ⟨'-', Nat.toDigits 10 i.natAbs ++ rest, by simp, rfl, by simp, fun p => ?_⟩
    exact cut_numeral hv _ h
  · rw [decide_eq_false hn] at hv
    rw [if_neg hn, String.toList_ofList]
    have hne : Nat.toDigits 10 i.natAbs ≠ [] := Nat.toDigits_ne_nil
    obtain ⟨c, cs, hc⟩ := List.exists_cons_of_ne_nil hne
    have hd : isDigit c = true := Text.numeral_digits i.natAbs c (hc ▸ List.mem_cons_self)
    refine ⟨c, cs ++ rest, by rw [hc]; rfl, digit_solid hd, by simp, fun p => ?_⟩
    rw [cut_digit hd]
    have hn := cut_numeral hv p h
    rw [hc] at hn
    exact hn

/-- The machine goes over the characters from `cs` to `rest`, wherever they stand. -/
def Reads (r : Reading) (cs : List Char) (s : Reading) (rest : List Char) : Prop :=
  ∀ p turns, cs.length ≤ turns → ∃ q left, rest.length ≤ left ∧
    (cutTokens p turns cs).foldlM Reading.take r = (cutTokens q left rest).foldlM Reading.take s

theorem reads_trans {r s t : Reading} {cs ds es : List Char} (h : Reads r cs s ds)
    (h' : Reads s ds t es) : Reads r cs t es := by
  intro p turns ht
  obtain ⟨q, left, hl, hq⟩ := h p turns ht
  obtain ⟨q', left', hl', hq'⟩ := h' q left hl
  exact ⟨q', left', hl', hq.trans hq'⟩

theorem reads_token {r s : Reading} {c : Char} {cs rest : List Char} {l : Lexeme}
    (hs : isSpace c = false) (hl : rest.length ≤ cs.length) (hc : Cuts c cs l rest)
    (hb : l.isBroken = false) (ht : ∀ t : Token, t.lexeme = l → r.take t = .ok s) :
    Reads r (c :: cs) s rest := by
  intro p turns hturns
  obtain ⟨left, rfl⟩ : ∃ left, turns = left + 1 := ⟨turns - 1, by simp at hturns; omega⟩
  obtain ⟨stop, hcut⟩ := hc p
  refine ⟨stop, left, by simp at hturns; omega, ?_⟩
  rw [cutTokens, hs, if_neg Bool.false_ne_true]
  dsimp only
  rw [hcut, hb, if_neg Bool.false_ne_true, List.foldlM_cons, ht _ rfl]
  rfl

def Reading.OfValue (r : Reading) : Prop :=
  r.awaiting = .value ∨ r.awaiting = .firstItem ∨ r.awaiting = .nextItem

def Reading.OfKey (r : Reading) (fields : Fields) : Prop :=
  r.awaiting = .firstKey fields ∨ r.awaiting = .nextKey fields

theorem take_of_value {r : Reading} (hr : r.OfValue) {t : Token} (ht : t.lexeme ≠ .closeList) :
    r.take t = r.takeValue t := by
  unfold Reading.take
  rcases hr with hr | hr | hr <;> rw [hr]
  all_goals
    dsimp only
    split
    next hc => exact absurd hc ht
    next => rfl

theorem take_of_key {r : Reading} {fields : Fields} (hr : r.OfKey fields) {t : Token}
    (ht : t.lexeme ≠ .closeObject) : r.take t = r.takeKey fields t := by
  unfold Reading.take
  rcases hr with hr | hr <;> rw [hr]
  all_goals
    dsimp only
    split
    next hc => exact absurd hc ht
    next => rfl

/-- Behind its compact text the machine has the value. -/
def Returns (depth : Nat) (v : Json) : Prop :=
  ∀ (r : Reading) (rest : List Char), r.OfValue → r.depth = depth → Ends rest →
    Reads r (v.compact.toList ++ rest) (r.give v) rest

theorem reads_leaf {r : Reading} {c : Char} {cs rest : List Char} {l : Lexeme} {v : Json}
    (hr : r.OfValue) (hs : isSpace c = false) (hl : rest.length ≤ cs.length)
    (hc : Cuts c cs l rest) (hb : l.isBroken = false) (hn : l ≠ .closeList)
    (ht : ∀ t : Token, t.lexeme = l → r.takeValue t = .ok (r.give v)) :
    Reads r (c :: cs) (r.give v) rest := by
  refine reads_token hs hl hc hb fun t he => ?_
  rw [take_of_value hr (he ▸ hn), ht t he]

theorem null_returns (depth : Nat) : Returns depth .null := by
  intro r rest hr _ _
  have cuts : Cuts 'n' ('u' :: 'l' :: 'l' :: rest) .null rest := fun p => ⟨_, rfl⟩
  refine reads_leaf hr rfl (by simp; omega) cuts rfl nofun fun t ht => ?_
  rw [Reading.takeValue, ht]

theorem bool_returns (depth : Nat) (b : Bool) : Returns depth (.bool b) := by
  intro r rest hr _ _
  cases b with
  | true =>
    have cuts : Cuts 't' ('r' :: 'u' :: 'e' :: rest) (.bool true) rest := fun p => ⟨_, rfl⟩
    refine reads_leaf hr rfl (by simp; omega) cuts rfl nofun fun t ht => ?_
    rw [Reading.takeValue, ht]
  | false =>
    have cuts : Cuts 'f' ('a' :: 'l' :: 's' :: 'e' :: rest) (.bool false) rest :=
      fun p => ⟨_, rfl⟩
    refine reads_leaf hr rfl (by simp; omega) cuts rfl nofun fun t ht => ?_
    rw [Reading.takeValue, ht]

theorem integer_returns (depth : Nat) {i : Int} (hi : (Number.integer i).InRange) :
    Returns depth (.number (.integer i)) := by
  intro r rest hr _ hrest
  obtain ⟨c, cs, he, hs, hl, hc⟩ := cuts_integer hi hrest
  have hcompact : (Json.number (.integer i)).compact = Text.signedNumeral i := by
    rw [compact, Number.render]
  rw [hcompact, he]
  refine reads_leaf hr hs hl hc rfl nofun fun t ht => ?_
  rw [Reading.takeValue, ht]
  rfl

theorem text_returns (depth : Nat) (s : String) : Returns depth (.text s) := by
  intro r rest hr _ _
  have hcompact : (Json.text s).compact = quote s := by rw [compact]
  rw [hcompact, quote_chars]
  refine reads_leaf hr rfl (by simp; omega) (cuts_quoted s rest) rfl nofun fun t ht => ?_
  rw [Reading.takeValue, ht]
  rfl

def following {α : Type} (text : α → List Char) (xs : List α) : List Char :=
  xs.flatMap fun x => ',' :: text x

theorem following_ends {α : Type} (text : α → List Char) {e : Char}
    (he : ∀ rest, Ends (e :: rest)) (xs : List α) (rest : List Char) :
    Ends (following text xs ++ e :: rest) := by
  cases xs with
  | nil => exact he rest
  | cons x xs => exact ends_before (by decide) _

/-- If the machine goes on over every one of them, it goes over all. -/
theorem following_read {α : Type} {text : α → List Char} (state : List α → Reading) {e : Char}
    (he : ∀ rest, Ends (e :: rest)) {all : List α}
    (step : ∀ done x more, all = done ++ x :: more → ∀ rest, Ends rest →
      Reads (state done) (',' :: (text x ++ rest)) (state (done ++ [x])) rest)
    (done xs : List α) (h : all = done ++ xs) (rest : List Char) :
    Reads (state done) (following text xs ++ e :: rest) (state all) (e :: rest) := by
  induction xs generalizing done with
  | nil =>
    rw [List.append_nil] at h
    subst h
    exact fun p turns ht => ⟨p, turns, ht, rfl⟩
  | cons x xs ih =>
    have first := step done x xs h _ (following_ends text he xs rest)
    have others := ih (done ++ [x]) (by simp [h])
    have htext : following text (x :: xs) ++ e :: rest =
        ',' :: (text x ++ (following text xs ++ e :: rest)) := by
      simp [following]
    rw [htext]
    exact reads_trans first others

theorem items_chars (v : Json) (vs : List Json) : (compactItems (v :: vs)).toList =
    v.compact.toList ++ following (fun w : Json => w.compact.toList) vs := by
  induction vs generalizing v with
  | nil => simp [compactItems, following]
  | cons w vs ih => simp [compactItems, ih, following]

def fieldChars (f : String × Json) : List Char :=
  (quote f.1).toList ++ ':' :: f.2.compact.toList

theorem fields_chars (f : String × Json) (fs : Fields) :
    (compactFields (f :: fs)).toList = fieldChars f ++ following fieldChars fs := by
  induction fs generalizing f with
  | nil => simp [compactFields, following, fieldChars]
  | cons g fs ih => simp [compactFields, ih, following, fieldChars]

theorem items_read {outer : Nat} {frames : List Frame} {items : List Json}
    (h : ∀ v ∈ items, Returns (outer + frames.length + 1) v) (done xs : List Json)
    (hx : items = done ++ xs) (rest : List Char) :
    Reads ⟨outer, .list done.reverse :: frames, .listEnd⟩
      (following (fun w : Json => w.compact.toList) xs ++ ']' :: rest)
      (Reading.give ⟨outer, frames, .value⟩ (.list items)) rest := by
  have step : ∀ done v more, items = done ++ v :: more → ∀ rest, Ends rest →
      Reads ⟨outer, .list done.reverse :: frames, .listEnd⟩ (',' :: (v.compact.toList ++ rest))
        ⟨outer, .list (done ++ [v]).reverse :: frames, .listEnd⟩ rest := by
    intro done v more hi rest hrest
    have comma : Reads ⟨outer, .list done.reverse :: frames, .listEnd⟩
        (',' :: (v.compact.toList ++ rest)) ⟨outer, .list done.reverse :: frames, .nextItem⟩
        (v.compact.toList ++ rest) := by
      refine reads_token (l := .comma) rfl le_rfl (fun p => ⟨_, rfl⟩) rfl fun t ht => ?_
      rw [Reading.take, ht]
    have item := h v (by simp [hi]) ⟨outer, .list done.reverse :: frames, .nextItem⟩ rest
      (.inr (.inr rfl)) rfl hrest
    rw [List.reverse_append]
    exact reads_trans comma item
  have ends : ∀ rest, Ends (']' :: rest) := ends_before (by decide)
  have all := following_read (fun done => ⟨outer, .list done.reverse :: frames, .listEnd⟩) ends
    step done xs hx rest
  refine reads_trans all ?_
  refine reads_token (l := .closeList) rfl le_rfl (fun p => ⟨_, rfl⟩) rfl fun t ht => ?_
  rw [Reading.take, ht]
  simp only [Reading.closeList, List.reverse_reverse]

theorem list_returns {depth : Nat} {items : List Json}
    (hd : depth + 1 < Reading.nestingLimit) (h : ∀ v ∈ items, Returns (depth + 1) v) :
    Returns depth (.list items) := by
  rintro ⟨outer, frames, awaiting⟩ rest hr rfl _
  have opened (cs : List Char) :
      Reads ⟨outer, frames, awaiting⟩ ('[' :: cs) ⟨outer, .list [] :: frames, .firstItem⟩ cs := by
    refine reads_token (l := .openList) rfl le_rfl (fun p => ⟨_, rfl⟩) rfl fun t ht => ?_
    rw [take_of_value hr (by simp [ht]), Reading.takeValue, ht]
    exact if_pos hd
  cases items with
  | nil =>
    refine reads_trans (opened (']' :: rest)) ?_
    refine reads_token (l := .closeList) rfl le_rfl (fun p => ⟨_, rfl⟩) rfl fun t ht => ?_
    rw [Reading.take, ht]
    rfl
  | cons v vs =>
    have hchars : (Json.list (v :: vs)).compact.toList ++ rest = '[' :: (v.compact.toList ++
        (following (fun w : Json => w.compact.toList) vs ++ ']' :: rest)) := by
      simp [compact, items_chars]
    have item := h v List.mem_cons_self ⟨outer, .list [] :: frames, .firstItem⟩
      (following (fun w : Json => w.compact.toList) vs ++ ']' :: rest) (.inr (.inl rfl)) rfl
      (following_ends _ (ends_before (by decide)) vs rest)
    rw [hchars]
    exact reads_trans (opened _) (reads_trans item (items_read h [v] vs rfl rest))

theorem set_fresh {fields : Fields} {key : String} (h : key ∉ fields.map Prod.fst) (v : Json) :
    fields.set key v = fields ++ [(key, v)] := by
  induction fields with
  | nil => rfl
  | cons f fields ih =>
    rw [List.map_cons, List.mem_cons, not_or] at h
    rw [Fields.set, if_neg (Ne.symm h.1), ih h.2]
    rfl

theorem field_read {r : Reading} {fields : Fields} (hr : r.OfKey fields) {f : String × Json}
    (hf : f.1 ∉ fields.map Prod.fst) (h : Returns (r.depth + 1) f.2) {rest : List Char}
    (hrest : Ends rest) :
    Reads r (fieldChars f ++ rest) ⟨r.outer, r.frames, .objectEnd (fields ++ [f])⟩ rest := by
  obtain ⟨key, v⟩ := f
  have hchars : fieldChars (key, v) ++ rest =
      (quote key).toList ++ (':' :: (v.compact.toList ++ rest)) := by
    simp [fieldChars]
  have named : Reads r ((quote key).toList ++ (':' :: (v.compact.toList ++ rest)))
      ⟨r.outer, .object fields key :: r.frames, .colon⟩ (':' :: (v.compact.toList ++ rest)) := by
    rw [quote_chars]
    refine reads_token rfl (by simp; omega) (cuts_quoted key _) rfl fun t ht => ?_
    rw [take_of_key hr (by simp [ht]), Reading.takeKey, ht]
    rfl
  have colon : Reads ⟨r.outer, .object fields key :: r.frames, .colon⟩
      (':' :: (v.compact.toList ++ rest)) ⟨r.outer, .object fields key :: r.frames, .value⟩
      (v.compact.toList ++ rest) := by
    refine reads_token (l := .colon) rfl le_rfl (fun p => ⟨_, rfl⟩) rfl fun t ht => ?_
    rw [Reading.take, ht]
  have value := h ⟨r.outer, .object fields key :: r.frames, .value⟩ rest (.inl rfl) rfl hrest
  rw [hchars, ← set_fresh hf]
  exact reads_trans named (reads_trans colon value)

theorem fields_read {outer : Nat} {frames : List Frame} {fields : Fields}
    (hn : (fields.map Prod.fst).Nodup) (h : ∀ f ∈ fields, Returns (outer + frames.length + 1) f.2)
    (done xs : Fields) (hx : fields = done ++ xs) (rest : List Char) :
    Reads ⟨outer, frames, .objectEnd done⟩ (following fieldChars xs ++ '\x7d' :: rest)
      (Reading.give ⟨outer, frames, .value⟩ (.object fields)) rest := by
  have step : ∀ done f more, fields = done ++ f :: more → ∀ rest, Ends rest →
      Reads ⟨outer, frames, .objectEnd done⟩ (',' :: (fieldChars f ++ rest))
        ⟨outer, frames, .objectEnd (done ++ [f])⟩ rest := by
    intro done f more hi rest hrest
    have fresh : f.1 ∉ done.map Prod.fst := by
      rw [hi, List.map_append, List.nodup_append] at hn
      exact fun hm => hn.2.2 _ hm _ (by simp) rfl
    have comma : Reads ⟨outer, frames, .objectEnd done⟩ (',' :: (fieldChars f ++ rest))
        ⟨outer, frames, .nextKey done⟩ (fieldChars f ++ rest) := by
      refine reads_token (l := .comma) rfl le_rfl (fun p => ⟨_, rfl⟩) rfl fun t ht => ?_
      rw [Reading.take, ht]
    exact reads_trans comma (field_read (r := ⟨outer, frames, .nextKey done⟩) (.inr rfl) fresh
      (h f (by simp [hi])) hrest)
  have ends : ∀ rest, Ends ('\x7d' :: rest) := ends_before (by decide)
  have all := following_read (fun done => ⟨outer, frames, .objectEnd done⟩) ends step done xs hx
    rest
  refine reads_trans all ?_
  refine reads_token (l := .closeObject) rfl le_rfl (fun p => ⟨_, rfl⟩) rfl fun t ht => ?_
  rw [Reading.take, ht]
  rfl

theorem object_returns {depth : Nat} {fields : Fields}
    (hd : depth + 1 < Reading.nestingLimit) (hn : (fields.map Prod.fst).Nodup)
    (h : ∀ f ∈ fields, Returns (depth + 1) f.2) : Returns depth (.object fields) := by
  rintro ⟨outer, frames, awaiting⟩ rest hr rfl _
  have opened (cs : List Char) :
      Reads ⟨outer, frames, awaiting⟩ ('\x7b' :: cs) ⟨outer, frames, .firstKey []⟩ cs := by
    refine reads_token (l := .openObject) rfl le_rfl (fun p => ⟨_, rfl⟩) rfl fun t ht => ?_
    rw [take_of_value hr (by simp [ht]), Reading.takeValue, ht]
    exact if_pos hd
  cases fields with
  | nil =>
    refine reads_trans (opened ('\x7d' :: rest)) ?_
    refine reads_token (l := .closeObject) rfl le_rfl (fun p => ⟨_, rfl⟩) rfl fun t ht => ?_
    rw [Reading.take, ht]
    rfl
  | cons f fs =>
    have hchars : (Json.object (f :: fs)).compact.toList ++ rest =
        '\x7b' :: (fieldChars f ++ (following fieldChars fs ++ '\x7d' :: rest)) := by
      simp [compact, fields_chars]
    have ends : Ends (following fieldChars fs ++ '\x7d' :: rest) :=
      following_ends _ (ends_before (by decide)) fs rest
    have first := field_read (r := ⟨outer, frames, .firstKey []⟩) (.inl rfl) (by simp)
      (h f List.mem_cons_self) ends
    rw [hchars]
    exact reads_trans (opened _) (reads_trans first (fields_read hn h [f] fs rfl rest))

theorem legible_returns {depth : Nat} {v : Json} (h : v.Legible depth) (hw : v.isWhole = true) :
    Returns depth v := by
  induction h with
  | null depth => exact null_returns depth
  | bool depth b => exact bool_returns depth b
  | @number depth n hi =>
    cases n with
    | integer i => exact integer_returns depth hi
    | real x => cases hw
  | text depth s => exact text_returns depth s
  | list hd _ ih => exact list_returns hd fun v hv => ih v hv ((whole_list _).mp hw v hv)
  | object hd hn _ ih =>
    exact object_returns hd hn fun f hf => ih f hf ((whole_object _).mp hw f hf)

theorem read_compact {v : Json} (h : v.Legible 0) (hw : v.isWhole = true) :
    read v.compact = .ok v := by
  obtain ⟨q, left, -, hr⟩ := legible_returns h hw (Reading.start 0) [] (.inl rfl) rfl nofun .start
    v.compact.toList.length (by simp)
  have hend : cutTokens q left [] = [] := by cases left <;> rfl
  rw [List.append_nil, hend] at hr
  unfold read tokens
  dsimp only
  rw [hr]
  rfl

end CohortQuery.Json

namespace CohortQuery

theorem stored_read {t : String} {v : Json} (h : Json.read t = .ok v) : storedProperties t = v := by
  have hne : t.isEmpty = false := by
    rw [← Bool.not_eq_true, String.isEmpty_iff]
    rintro rfl
    cases h
  unfold storedProperties
  rw [hne, if_neg Bool.false_ne_true, h]

theorem stored_unread {t : String} (hne : t ≠ "") (h : ∀ v, Json.read t ≠ .ok v) :
    storedProperties t = .text t := by
  unfold storedProperties
  rw [if_neg (mt String.isEmpty_iff.mp hne)]
  split
  next hr => exact absurd hr (h _)
  next => rfl

theorem stored_legible (t : String) : (storedProperties t).Legible 0 := by
  unfold storedProperties
  split
  next => exact .object (by decide) List.nodup_nil (List.forall_mem_nil _)
  next =>
    split
    next hr => exact Json.read_legible hr
    next => exact .text 0 t

theorem stored_whole {t : String} (h : ∀ v, Json.read t = .ok v → v.isWhole = true) :
    (storedProperties t).isWhole = true := by
  unfold storedProperties
  split
  next => rfl
  next =>
    split
    next hr => exact h _ hr
    next => rfl

/-- What stands for a stored text is the value that is read from it, or else the text itself, and
it is read again from its own compact text. -/
theorem properties_again (t : String) (h : ∀ v, Json.read t = .ok v → v.isWhole = true) :
    let v := storedProperties t
    Json.read v.compact = .ok v ∧ storedProperties v.compact = v ∧
    (∀ w, Json.read t = .ok w → v = w) ∧ (t = "" → v = .object []) ∧
    (t ≠ "" → (∀ w, Json.read t ≠ .ok w) → v = .text t) := by
  have again := Json.read_compact (stored_legible t) (stored_whole h)
  refine ⟨again, stored_read again, fun w hw => stored_read hw, ?_, stored_unread⟩
  rintro rfl
  rfl

/-- One name is written in two ways, and the later field counts. -/
def nestedProperties : String :=
  " \x7b\"a\\u0001\\/\": \"x\\ny\", \"n\": [-7, 18446744073709551615, \x7b\x7d], " ++
    "\"a\\u0001/\": \"\\\"\\\\\"\x7d\n"

def cutProperties : String := "\x7b\"plan\": \"pro\u0007\"\x7d"

theorem nested_again :
    (∀ v, Json.read nestedProperties = .ok v → v.isWhole = true) ∧
    (∀ v, Json.read cutProperties = .ok v → v.isWhole = true) ∧
    (storedProperties nestedProperties).compact =
      "\x7b\"a\\u0001/\":\"\\\"\\\\\",\"n\":[-7,18446744073709551615,\x7b\x7d]\x7d" ∧
    storedProperties (storedProperties nestedProperties).compact =
      storedProperties nestedProperties ∧
    storedProperties cutProperties = .text cutProperties ∧
    (storedProperties cutProperties).compact =
      "\"\x7b\\\"plan\\\": \\\"pro\\u0007\\\"\x7d\"" ∧
    storedProperties (storedProperties cutProperties).compact = .text cutProperties := by
  have nested : nestedProperties.toList = _ :=
    Json.chars_append String.toList_ofList String.toList_ofList
  have cut : cutProperties.toList = _ := String.toList_ofList
  have hn : ∀ v, Json.read nestedProperties = .ok v → v.isWhole = true := by
    have h : (Json.read nestedProperties).toOption.all Json.isWhole = true := by
      rw [Json.read_chars nested]
      decide +kernel
    intro v hv
    rw [hv] at h
    exact h
  have unread : ∀ v, Json.read cutProperties ≠ .ok v := by
    have h : (Json.read cutProperties).toOption.isNone = true := by
      rw [Json.read_chars cut]
      decide +kernel
    intro v hv
    rw [hv] at h
    cases h
  have hc : ∀ v, Json.read cutProperties = .ok v → v.isWhole = true :=
    fun v hv => absurd hv (unread v)
  obtain ⟨-, again, -⟩ := properties_again nestedProperties hn
  obtain ⟨-, again', -, -, text⟩ := properties_again cutProperties hc
  have same := text (by decide) unread
  have compact : (storedProperties nestedProperties).compact =
      "\x7b\"a\\u0001/\":\"\\\"\\\\\",\"n\":[-7,18446744073709551615,\x7b\x7d]\x7d" := by
    rw [storedProperties, Json.read_chars nested]
    decide +kernel
  have quoted : (Json.text cutProperties).compact =
      "\"\x7b\\\"plan\\\": \\\"pro\\u0007\\\"\x7d\"" := by
    decide +kernel
  exact ⟨hn, hc, compact, again, same, same ▸ quoted, again'.trans same⟩

end CohortQuery
