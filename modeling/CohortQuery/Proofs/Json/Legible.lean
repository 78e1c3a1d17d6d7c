import CohortQuery.Json.Read
import CohortQuery.Proofs.Decimal.Reading
import CohortQuery.Proofs.Json.Distinct

/-!
# Values that can be read

What is read has containers that are not too deep, objects in which no name comes twice, integers
that are in range, and real numbers of the format. The machine keeps this of all that it holds,
token by token.
-/

set_option autoImplicit false

namespace CohortQuery.Json

open CohortQuery.Decimal (twoTo)

/-- An integer outside of this range is read as a real number. -/
def Number.InRange : Number → Prop
  | .integer i => -twoTo 63 ≤ i ∧ i < twoTo 64
  | .real x => x.Proper

/-- The value can stand inside so many containers. -/
inductive Legible : Nat → Json → Prop where
  | null (depth : Nat) : Legible depth .null
  | bool (depth : Nat) (b : Bool) : Legible depth (.bool b)
  | number (depth : Nat) {n : Number} (h : n.InRange) : Legible depth (.number n)
  | text (depth : Nat) (s : String) : Legible depth (.text s)
  | list {depth : Nat} {items : List Json} (hd : depth + 1 < Reading.nestingLimit)
      (h : ∀ v ∈ items, Legible (depth + 1) v) : Legible depth (.list items)
  | object {depth : Nat} {fields : Fields} (hd : depth + 1 < Reading.nestingLimit)
      (hn : (fields.map Prod.fst).Nodup) (h : ∀ f ∈ fields, Legible (depth + 1) f.2) :
      Legible depth (.object fields)

theorem legible_list {depth : Nat} {items : List Json} : Legible depth (.list items) ↔
    depth + 1 < Reading.nestingLimit ∧ ∀ v ∈ items, Legible (depth + 1) v := by
  constructor
  · intro h
    cases h with
    | list hd h => exact ⟨hd, h⟩
  · exact fun ⟨hd, h⟩ => .list hd h

theorem legible_object {depth : Nat} {fields : Fields} : Legible depth (.object fields) ↔
    depth + 1 < Reading.nestingLimit ∧ (fields.map Prod.fst).Nodup ∧
      ∀ f ∈ fields, Legible (depth + 1) f.2 := by
  constructor
  · intro h
    cases h with
    | object hd hn h => exact ⟨hd, hn, h⟩
  · exact fun ⟨hd, hn, h⟩ => .object hd hn h

theorem legible_distinct {depth : Nat} {v : Json} (h : Legible depth v) : Distinct v := by
  induction h with
  | null => exact .null
  | bool _ b => exact .bool b
  | number => exact .number _
  | text _ s => exact .text s
  | list _ _ ih => exact .list ih
  | object _ hn _ ih => exact .object hn fun f hf _ => ih f hf

theorem set_legible {depth : Nat} {fields : Fields} {key : String} {v : Json}
    (h : Legible depth (.object fields)) (hv : Legible (depth + 1) v) :
    Legible depth (.object (fields.set key v)) := by
  obtain ⟨hd, hn, h⟩ := legible_object.mp h
  refine .object hd (set_nodup hn key v) fun f hf => ?_
  rcases mem_set hf with rfl | hf
  · exact hv
  · exact h f hf

theorem integer_range {negative : Bool} {n : Nat} {i : Int} (h : integerOf negative n = some i) :
    (Number.integer i).InRange := by
  unfold integerOf at h
  unfold Number.InRange
  split at h
  · split at h
    · obtain rfl := Option.some.inj h
      omega
    · cases h
  · split at h
    · obtain rfl := Option.some.inj h
      omega
    · cases h

theorem power_positive (n : Nat) : (power n).Positive := by
  unfold power Binary64.ofDecimal
  rw [if_neg Nat.one_ne_zero]
  dsimp only
  split_ifs with _ hs
  · trivial
  · rw [Nat.toDigits_of_lt_base (by norm_num)] at hs
    exact absurd hs (by simp; omega)
  · have none : (-(n : Int)).toNat = 0 := by omega
    refine Binary64.quotient_positive _ (Decimal.ten_to_pos _) ?_
    rw [none, Nat.one_mul]
    exact Decimal.ten_to_pos _

theorem shrink_proper {x : Binary64} (h : x.Proper) (places turns : Nat) :
    (shrink x places turns).Proper := by
  induction turns generalizing x places with
  | zero => exact h
  | succ turns ih =>
    rw [shrink]
    generalize heldPower = held
    split_ifs
    · exact Binary64.div_proper x (power_positive places)
    · exact h
    · exact ih (Binary64.div_proper x (power_positive held)) _

theorem scaled_proper {digits : Nat} {exponent : Int} {x : Binary64}
    (h : scaled? digits exponent = some x) : x.Proper := by
  have whole := Binary64.quotient_proper false digits Nat.one_pos
  unfold scaled? at h
  dsimp only at h
  split_ifs at h <;> obtain rfl := Option.some.inj h
  · exact shrink_proper whole _ _
  · exact Binary64.mul_proper _ _
  · exact whole

theorem scaled_range {m : Numeral} {stop : Position} {digits : Nat} {exponent : Int} {n : Number}
    (h : Numeral.value.scaled m stop digits exponent = .ok n) : n.InRange := by
  unfold Numeral.value.scaled at h
  split at h
  next x hx =>
    obtain rfl := Except.ok.inj h
    have proper := scaled_proper hx
    change (if m.negative then x.negated else x).Proper
    split
    · exact Binary64.negated_proper proper
    · exact proper
  next => cases h

theorem numeral_range {m : Numeral} {stop : Position} {n : Number} (h : m.value stop = .ok n) :
    n.InRange := by
  unfold Numeral.value at h
  dsimp only at h
  split at h
  next hi => exact Except.ok.inj h ▸ integer_range hi
  next =>
    split at h
    next => exact scaled_range h
    next =>
      split at h
      next =>
        split at h
        · obtain rfl := Except.ok.inj h
          exact Binary64.zero_proper m.negative
        · cases h
      next => exact scaled_range h

def Lexeme.InRange : Lexeme → Prop
  | .number (.ok n) => n.InRange
  | _ => True

theorem value_range (m : Numeral) (stop : Position) :
    (Lexeme.number (m.value stop)).InRange := by
  cases hv : m.value stop with
  | error f => trivial
  | ok n => exact numeral_range hv

theorem broken_number_range (p : Position) (cs : List Char) :
    (brokenNumber p cs).lexeme.InRange := by
  cases cs <;> trivial

theorem either_range {c : Prop} [Decidable c] {k l : Cut} (hk : k.lexeme.InRange)
    (hl : l.lexeme.InRange) : (if c then k else l).lexeme.InRange :=
  iteInduction (motive := fun cut : Cut => cut.lexeme.InRange) (fun _ => hk) fun _ => hl

theorem exponent_range (m : Numeral) (p : Position) (cs : List Char) :
    (cutExponent m p cs).lexeme.InRange := by
  cases cs with
  | nil => exact value_range m p
  | cons c cs =>
    rw [cutExponent]
    refine either_range ?_ (value_range m p)
    split <;> exact either_range (broken_number_range _ _) (value_range _ _)

theorem fraction_range (negative : Bool) (whole : List Char) (p : Position) (cs : List Char) :
    (cutFraction negative whole p cs).lexeme.InRange := by
  unfold cutFraction
  split
  · exact either_range (broken_number_range _ _) (exponent_range _ _ _)
  · exact exponent_range _ _ _

theorem unsigned_range (negative : Bool) (p : Position) (cs : List Char) :
    (cutUnsigned negative p cs).lexeme.InRange := by
  unfold cutUnsigned
  dsimp only
  split
  · exact broken_number_range _ _
  · trivial
  · exact fraction_range _ _ _ _

theorem word_range {l : Lexeme} (hl : l.InRange) (p : Position) (letters cs : List Char) :
    (cutWord l p letters cs).lexeme.InRange := by
  induction letters generalizing p cs with
  | nil => exact hl
  | cons a letters ih =>
    cases cs with
    | nil => trivial
    | cons c cs => exact either_range (ih _ _) trivial

theorem text_range (s : TextScan) (p : Position) (cs : List Char) :
    (cutText s p cs).lexeme.InRange := by
  fun_induction cutText s p cs with
  | _ => first | assumption | trivial

theorem lexeme_range (p : Position) (c : Char) (cs : List Char) :
    (cutLexeme p c cs).lexeme.InRange := by
  unfold cutLexeme
  iterate 6 refine either_range trivial ?_
  refine either_range (word_range (l := .null) trivial _ _ _) ?_
  refine either_range (word_range (l := .bool true) trivial _ _ _) ?_
  refine either_range (word_range (l := .bool false) trivial _ _ _) ?_
  refine either_range (text_range _ _ _) ?_
  refine either_range (unsigned_range _ _ _) ?_
  exact either_range (unsigned_range _ _ _) trivial

theorem tokens_range (p : Position) (turns : Nat) (cs : List Char) :
    ∀ t ∈ cutTokens p turns cs, t.lexeme.InRange := by
  induction turns generalizing p cs with
  | zero => cases cs <;> exact fun _ h => nomatch h
  | succ turns ih =>
    cases cs with
    | nil => exact fun _ h => nomatch h
    | cons c cs =>
      unfold cutTokens
      split
      · exact ih _ _
      · refine List.forall_mem_cons.mpr ⟨lexeme_range p c cs, ?_⟩
        split
        · exact List.forall_mem_nil _
        · exact ih _ _

def Frame.Legible (depth : Nat) : Frame → Prop
  | .list items => Json.Legible depth (.list items)
  | .object fields _ => Json.Legible depth (.object fields)

def LegibleFrames (outer : Nat) : List Frame → Prop
  | [] => True
  | f :: frames => f.Legible (outer + frames.length) ∧ LegibleFrames outer frames

def Awaiting.Legible (outer : Nat) (frames : List Frame) : Awaiting → Prop
  | .firstItem | .nextItem | .listEnd => ∃ items rest, frames = .list items :: rest
  | .firstKey fields | .nextKey fields | .objectEnd fields =>
    Json.Legible (outer + frames.length) (.object fields)
  | .nothing v => Json.Legible outer v
  | .value | .colon => True

namespace Reading

/-- All that the machine holds can stand inside so many containers around the text. -/
structure Legible (around : Nat) (r : Reading) : Prop where
  outer : r.outer = around
  frames : LegibleFrames around r.frames
  awaiting : r.awaiting.Legible around r.frames

theorem give_legible {r : Reading} {v : Json} (hr : LegibleFrames r.outer r.frames)
    (hv : v.Legible r.depth) : (r.give v).Legible r.outer := by
  obtain ⟨outer, frames, awaiting⟩ := r
  match frames, hr, hv with
  | [], _, hv => exact ⟨rfl, trivial, hv⟩
  | .list items :: rest, ⟨hf, hr⟩, hv =>
    obtain ⟨hd, hi⟩ := legible_list.mp hf
    exact ⟨rfl, ⟨.list hd (List.forall_mem_cons.mpr ⟨hv, hi⟩), hr⟩, ⟨_, _, rfl⟩⟩
  | .object fields key :: rest, ⟨hf, hr⟩, hv => exact ⟨rfl, hr, set_legible hf hv⟩

theorem close_list_legible {r : Reading} (hr : LegibleFrames r.outer r.frames)
    (hi : ∃ items rest, r.frames = .list items :: rest) : r.closeList.Legible r.outer := by
  obtain ⟨outer, frames, awaiting⟩ := r
  obtain ⟨items, rest, rfl⟩ := hi
  obtain ⟨hf, hr⟩ := hr
  obtain ⟨hd, hi⟩ := legible_list.mp hf
  exact give_legible (r := ⟨outer, rest, .value⟩) hr
    (.list hd fun v hv => hi v (List.mem_reverse.mp hv))

theorem take_value_legible {r s : Reading} {t : Token} (hr : LegibleFrames r.outer r.frames)
    (ht : t.lexeme.InRange) (h : r.takeValue t = .ok s) : s.Legible r.outer := by
  unfold takeValue at h
  split at h
  case h_1 => exact Except.ok.inj h ▸ give_legible hr (.null _)
  case h_2 b _ => exact Except.ok.inj h ▸ give_legible hr (.bool _ b)
  case h_3 n he =>
    cases n with
    | error f => cases h
    | ok n =>
      rw [he] at ht
      exact Except.ok.inj h ▸ give_legible hr (.number _ ht)
  case h_4 u _ =>
    cases u with
    | error f => cases h
    | ok u => exact Except.ok.inj h ▸ give_legible hr (.text _ u)
  case h_5 =>
    split at h
    next hd =>
      obtain rfl := Except.ok.inj h
      exact ⟨rfl, ⟨.list hd (List.forall_mem_nil _), hr⟩, ⟨_, _, rfl⟩⟩
    next => cases h
  case h_6 =>
    split at h
    next hd =>
      obtain rfl := Except.ok.inj h
      exact ⟨rfl, hr, .object hd List.nodup_nil (List.forall_mem_nil _)⟩
    next => cases h
  all_goals cases h

theorem take_key_legible {r s : Reading} {fields : Fields} {t : Token}
    (hr : LegibleFrames r.outer r.frames) (hf : Json.Legible r.depth (.object fields))
    (h : r.takeKey fields t = .ok s) : s.Legible r.outer := by
  unfold takeKey at h
  split at h
  next u _ =>
    cases u with
    | error f => cases h
    | ok key =>
      obtain rfl := Except.ok.inj h
      exact ⟨rfl, ⟨hf, hr⟩, trivial⟩
  next => split at h <;> cases h
  next => cases h

theorem take_legible {around : Nat} {r s : Reading} {t : Token} (hr : r.Legible around)
    (ht : t.lexeme.InRange) (h : r.take t = .ok s) : s.Legible around := by
  obtain ⟨outer, frames, awaiting⟩ := r
  obtain ⟨rfl, hf, ha⟩ := hr
  cases awaiting with
  | value => exact take_value_legible hf ht h
  | firstItem =>
    simp only [take] at h
    split at h
    · exact Except.ok.inj h ▸ close_list_legible hf ha
    · exact take_value_legible hf ht h
  | nextItem =>
    simp only [take] at h
    split at h
    · cases h
    · exact take_value_legible hf ht h
  | listEnd =>
    simp only [take] at h
    split at h
    · exact Except.ok.inj h ▸ close_list_legible hf ha
    · exact Except.ok.inj h ▸ ⟨rfl, hf, ha⟩
    · cases h
  | firstKey fields =>
    simp only [take] at h
    split at h
    · exact Except.ok.inj h ▸ give_legible hf ha
    · exact take_key_legible hf ha h
  | nextKey fields =>
    simp only [take] at h
    split at h
    · cases h
    · exact take_key_legible hf ha h
  | colon =>
    simp only [take] at h
    split at h
    · exact Except.ok.inj h ▸ ⟨rfl, hf, trivial⟩
    · cases h
  | objectEnd fields =>
    simp only [take] at h
    split at h
    · exact Except.ok.inj h ▸ give_legible hf ha
    · exact Except.ok.inj h ▸ ⟨rfl, hf, ha⟩
    · cases h
  | nothing v => cases h

theorem run_legible {around : Nat} {r s : Reading} {ts : List Token} (hr : r.Legible around)
    (ht : ∀ t ∈ ts, t.lexeme.InRange) (h : ts.foldlM take r = .ok s) : s.Legible around := by
  induction ts generalizing r with
  | nil => exact Except.ok.inj h ▸ hr
  | cons t ts ih =>
    obtain ⟨ht, hts⟩ := List.forall_mem_cons.mp ht
    rw [List.foldlM_cons] at h
    cases hu : r.take t with
    | error f =>
      rw [hu] at h
      cases h
    | ok u =>
      rw [hu] at h
      exact ih (take_legible hr ht hu) hts h

theorem finish_legible {around : Nat} {r : Reading} {stop : Position} {v : Json}
    (hr : r.Legible around) (h : r.finish stop = .ok v) : v.Legible around := by
  have ha := hr.awaiting
  unfold finish at h
  split at h
  next he =>
    rw [he] at ha
    exact Except.ok.inj h ▸ ha
  all_goals cases h

end Reading

theorem read_legible {s : String} {v : Json} (h : read s = .ok v) : v.Legible 0 := by
  unfold read at h
  cases hr : (tokens s).list.foldlM Reading.take (Reading.start 0) with
  | error f =>
    simp only [hr] at h
    cases h
  | ok r =>
    simp only [hr] at h
    have hs : (Reading.start 0).Legible 0 := ⟨rfl, trivial, trivial⟩
    exact Reading.finish_legible (Reading.run_legible hs (tokens_range _ _ _) hr) h

theorem read_distinct {s : String} {v : Json} (h : read s = .ok v) : v.Distinct :=
  legible_distinct (read_legible h)

def readChars (cs : List Char) : Except Fault Json := do
  let r ← (cutTokens .start cs.length cs).foldlM Reading.take (Reading.start 0)
  r.finish (Position.start.pastAll cs)

theorem read_chars {s : String} {cs : List Char} (h : s.toList = cs) : read s = readChars cs := by
  rw [read, tokens, h]
  rfl

theorem chars_append {s t : String} {cs ds : List Char} (hs : s.toList = cs) (ht : t.toList = ds) :
    (s ++ t).toList = cs ++ ds := by
  rw [String.toList_append, hs, ht]

end CohortQuery.Json
