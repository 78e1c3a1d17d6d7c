import CohortQuery.Text.Numeral
import Mathlib.Data.List.TakeWhile
import Mathlib.Tactic.Ring

/-!
# Runs of digits

Runs of one length are ordered as texts as their numbers are, and a numeral that is filled up to
the width of a run is that run.
-/

set_option autoImplicit false

namespace CohortQuery.Text

theorem is_digit (c : Char) : isDigit c = c.isDigit := rfl

theorem digit_bounds {c : Char} (h : isDigit c = true) : 48 ≤ c.toNat ∧ c.toNat ≤ 57 := by
  rw [is_digit, Char.isDigit_iff_toNat] at h
  exact h

theorem digit_value_lt {c : Char} (h : isDigit c = true) : digitValue c < 10 := by
  have hc := digit_bounds h
  have h0 : '0'.toNat = 48 := rfl
  unfold digitValue
  omega

theorem digit_order {c d : Char} (hc : isDigit c = true) (hd : isDigit d = true) :
    c < d ↔ digitValue c < digitValue d := by
  have h1 := digit_bounds hc
  have h2 := digit_bounds hd
  have h0 : '0'.toNat = 48 := rfl
  have hl : c < d ↔ c.toNat < d.toNat := Iff.rfl
  rw [hl, digitValue, digitValue, h0]
  omega

theorem digit_injective {c d : Char} (hc : isDigit c = true) (hd : isDigit d = true)
    (h : digitValue c = digitValue d) : c = d := by
  have h1 := digit_bounds hc
  have h2 := digit_bounds hd
  have h0 : '0'.toNat = 48 := rfl
  rw [digitValue, digitValue, h0] at h
  exact Char.toNat_inj.mp (by omega)

theorem of_digits_from (n : Nat) (ds : List Char) :
    ds.foldl (fun n d => 10 * n + digitValue d) n = n * 10 ^ ds.length + ofDigits ds := by
  induction ds generalizing n with
  | nil => simp [ofDigits]
  | cons c ds ih =>
    rw [ofDigits, List.foldl_cons, List.foldl_cons, ih, ih, List.length_cons]
    ring

theorem of_digits_append (xs ys : List Char) :
    ofDigits (xs ++ ys) = ofDigits xs * 10 ^ ys.length + ofDigits ys := by
  rw [ofDigits, List.foldl_append, of_digits_from]
  rfl

theorem of_digits_cons (c : Char) (ds : List Char) :
    ofDigits (c :: ds) = digitValue c * 10 ^ ds.length + ofDigits ds := by
  rw [ofDigits, List.foldl_cons, of_digits_from, Nat.mul_zero, Nat.zero_add]

theorem of_digits_lt {ds : List Char} (h : ∀ c ∈ ds, isDigit c = true) :
    ofDigits ds < 10 ^ ds.length := by
  induction ds with
  | nil => decide
  | cons c ds ih =>
    have hc := digit_value_lt (h c (by simp))
    have hs := ih fun d hd => h d (by simp [hd])
    have hm : digitValue c * 10 ^ ds.length ≤ 9 * 10 ^ ds.length :=
      Nat.mul_le_mul_right _ (by omega)
    rw [of_digits_cons, List.length_cons, Nat.pow_succ]
    omega

theorem append_order {xs ys : List Char} (h : xs.length = ys.length) (us vs : List Char) :
    xs ++ us < ys ++ vs ↔ xs < ys ∨ xs = ys ∧ us < vs := by
  induction xs generalizing ys with
  | nil =>
    obtain rfl := List.length_eq_zero_iff.mp h.symm
    simp
  | cons x xs ih =>
    cases ys with
    | nil => simp at h
    | cons y ys =>
      rw [List.cons_append, List.cons_append, List.cons_lt_cons_iff, List.cons_lt_cons_iff,
        ih (Nat.succ.inj h), List.cons.injEq, and_or_left, or_assoc, and_assoc]

theorem radix_order {x y r s k : Nat} (hr : r < k) (hs : s < k) :
    x * k + r < y * k + s ↔ x < y ∨ x = y ∧ r < s := by
  rcases Nat.lt_trichotomy x y with h | rfl | h
  · have hm := Nat.mul_le_mul_right k h
    rw [Nat.succ_mul] at hm
    omega
  · omega
  · have hm := Nat.mul_le_mul_right k h
    rw [Nat.succ_mul] at hm
    omega

theorem digits_order {xs ys : List Char} (hl : xs.length = ys.length)
    (hx : ∀ c ∈ xs, isDigit c = true) (hy : ∀ c ∈ ys, isDigit c = true) :
    xs < ys ↔ ofDigits xs < ofDigits ys := by
  induction xs generalizing ys with
  | nil =>
    obtain rfl := List.length_eq_zero_iff.mp hl.symm
    simp
  | cons x xs ih =>
    cases ys with
    | nil => simp at hl
    | cons y ys =>
      have hl := Nat.succ.inj hl
      rw [List.forall_mem_cons] at hx hy
      have hb := of_digits_lt hx.2
      rw [hl] at hb
      have he : x = y ↔ digitValue x = digitValue y :=
        ⟨congrArg digitValue, digit_injective hx.1 hy.1⟩
      rw [List.cons_lt_cons_iff, of_digits_cons, of_digits_cons, hl,
        radix_order hb (of_digits_lt hy.2), ih hl hx.2 hy.2, digit_order hx.1 hy.1, he]

theorem run_injective {xs ys : List Char} (hl : xs.length = ys.length)
    (hx : ∀ c ∈ xs, isDigit c = true) (hy : ∀ c ∈ ys, isDigit c = true)
    (h : ofDigits xs = ofDigits ys) : xs = ys := by
  have hxy := mt (digits_order hl hx hy).mp (by omega)
  have hyx := mt (digits_order hl.symm hy hx).mp (by omega)
  exact List.le_antisymm hyx hxy

theorem numeral_digits (n : Nat) : ∀ c ∈ Nat.toDigits 10 n, isDigit c = true := fun _ hc =>
  Nat.isDigit_of_mem_toDigits (by omega) (by omega) hc

theorem numeral_value (n : Nat) : ofDigits (Nat.toDigits 10 n) = n :=
  Nat.ofDigitChars_ten_toDigits

theorem zeros_value (k : Nat) : ofDigits (List.replicate k '0') = 0 := by
  induction k with
  | zero => rfl
  | succ k ih =>
    rw [List.replicate_succ, of_digits_cons, ih]
    simp [digitValue]

theorem padded_chars (width n : Nat) : (paddedNumeral width n).toList =
    List.replicate (width - (Nat.toDigits 10 n).length) '0' ++ Nat.toDigits 10 n := by
  simp [paddedNumeral]

theorem padded_digits (width n : Nat) : ∀ c ∈ (paddedNumeral width n).toList, isDigit c = true := by
  intro c hc
  rw [padded_chars, List.mem_append] at hc
  rcases hc with hc | hc
  · rw [List.eq_of_mem_replicate hc]
    decide
  · exact numeral_digits n c hc

theorem padded_value (width n : Nat) : ofDigits (paddedNumeral width n).toList = n := by
  rw [padded_chars, of_digits_append, zeros_value, numeral_value, Nat.zero_mul, Nat.zero_add]

theorem padded_length {width n : Nat} (hw : 0 < width) (h : n < 10 ^ width) :
    (paddedNumeral width n).toList.length = width := by
  have hl := (Nat.length_toDigits_le_iff (by omega) hw).mpr h
  rw [padded_chars, List.length_append, List.length_replicate]
  omega

theorem padded_ne_nil (width n : Nat) : (paddedNumeral width n).toList ≠ [] := by
  simp [padded_chars, Nat.toDigits_ne_nil]

theorem padded_run {ds : List Char} (h : ∀ c ∈ ds, isDigit c = true) (hn : ds ≠ []) :
    (paddedNumeral ds.length (ofDigits ds)).toList = ds :=
  run_injective (padded_length (List.length_pos_iff.mpr hn) (of_digits_lt h))
    (padded_digits _ _) h (padded_value _ _)

theorem padded_injective {width m n : Nat}
    (h : (paddedNumeral width m).toList = (paddedNumeral width n).toList) : m = n := by
  rw [← padded_value width m, h, padded_value]

theorem padded_order {width m n : Nat} (hw : 0 < width) (hm : m < 10 ^ width)
    (hn : n < 10 ^ width) (us vs : List Char) :
    (paddedNumeral width m).toList ++ us < (paddedNumeral width n).toList ++ vs ↔
      m < n ∨ m = n ∧ us < vs := by
  have hl := (padded_length hw hm).trans (padded_length hw hn).symm
  have ho := digits_order hl (padded_digits width m) (padded_digits width n)
  rw [padded_value, padded_value] at ho
  rw [append_order hl, ho]
  exact or_congr_right (and_congr_left' ⟨padded_injective, fun h => by rw [h]⟩)

theorem numeral_read (n : Nat) : readNumeral (Nat.toDigits 10 n) = some n := by
  have hn : (Nat.toDigits 10 n).isEmpty = false := by
    simp [Nat.toDigits_ne_nil]
  rw [readNumeral, hn, if_pos (by simpa using numeral_digits n), numeral_value]

def readSigned : List Char → Option Int
  | '-' :: ds => (readNumeral ds).map fun n => -(n : Int)
  | ds => (readNumeral ds).map Int.ofNat

theorem signed_read (i : Int) : readSigned (signedNumeral i).toList = some i := by
  unfold signedNumeral
  split
  next hi =>
    have ht : ("-" ++ numeral i.natAbs).toList = '-' :: Nat.toDigits 10 i.natAbs := by
      simp [String.toList_append, numeral]
    have hn : -(i.natAbs : Int) = i := by omega
    rw [ht, readSigned, numeral_read]
    exact congrArg some hn
  next hi =>
    rw [numeral, String.toList_ofList]
    unfold readSigned
    split
    next ds hd =>
      have hm : '-' ∈ Nat.toDigits 10 i.natAbs := hd ▸ List.mem_cons_self
      exact absurd (numeral_digits _ _ hm) (by decide)
    next =>
      rw [numeral_read]
      exact congrArg some (by simp; omega)

theorem signed_chars (i : Int) : ∀ c ∈ (signedNumeral i).toList, isDigit c = true ∨ c = '-' := by
  have digits (n : Nat) : ∀ c ∈ (numeral n).toList, isDigit c = true := by
    rw [numeral, String.toList_ofList]
    exact numeral_digits n
  unfold signedNumeral
  split
  next =>
    rw [String.toList_append]
    refine List.forall_mem_append.mpr ⟨by simp, fun c hc => .inl (digits _ c hc)⟩
  next => exact fun c hc => .inl (digits _ c hc)

theorem signed_nonempty (i : Int) : signedNumeral i ≠ "" := by
  intro h
  have hl := congrArg String.toList h
  unfold signedNumeral numeral at hl
  split at hl <;> simp [Nat.toDigits_ne_nil] at hl

theorem signed_injective : Function.Injective signedNumeral := by
  intro i j h
  exact Option.some.inj ((signed_read i).symm.trans (h ▸ signed_read j))

end CohortQuery.Text
