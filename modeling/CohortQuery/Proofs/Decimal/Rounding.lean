import CohortQuery.Decimal.Shortest
import Mathlib.Algebra.Order.Field.Power
import Mathlib.Tactic.Linarith
import Mathlib.Tactic.NormNum
import Mathlib.Tactic.Positivity
import Mathlib.Tactic.Ring

/-!
# Rounding of quotients

Around every number of 53 bits, and around those with fewer bits at the least exponent, is an
interval of numbers that are rounded to it. The intervals are apart, and a quotient becomes the
number in whose interval it lies.
-/

set_option autoImplicit false

namespace CohortQuery.Decimal

/-- All 53 bits are used, or fewer of them at the least exponent. -/
structure Held (m : ℕ) (e : ℤ) : Prop where
  most : m < 2 ^ 53
  above : -1074 ≤ e
  least (he : -1074 < e) : 2 ^ 52 ≤ m

/-- All 53 bits are used, and there is a lower exponent. -/
structure Normal (m : ℕ) (e : ℤ) : Prop where
  least : 2 ^ 52 ≤ m
  most : m < 2 ^ 53
  above : -1074 < e

theorem Normal.pos {m : ℕ} {e : ℤ} (h : Normal m e) : 0 < m :=
  lt_of_lt_of_le (by norm_num) h.least

theorem Normal.held {m : ℕ} {e : ℤ} (h : Normal m e) : Held m e :=
  ⟨h.most, h.above.le, fun _ => h.least⟩

theorem Held.normal {m : ℕ} {e : ℤ} (h : Held m e) (he : -1074 < e) : Normal m e :=
  ⟨h.least he, h.most, he⟩

namespace Interval

/-- The number lies in the interval; its ends do if they are included. -/
structure Contains (i : Interval) (y : ℚ) : Prop where
  low : i.low * 2 ^ i.unit ≤ y
  high : y ≤ i.high * 2 ^ i.unit
  inside : i.closed = false → i.low * 2 ^ i.unit < y ∧ y < i.high * 2 ^ i.unit

theorem unit_pos (z : ℤ) : (0 : ℚ) < 2 ^ z := zpow_pos (by norm_num) z

theorem contains_quotient (i : Interval) (num : ℕ) {den : ℕ} (hd : 0 < den) :
    i.Contains (num / den * 2 ^ i.unit) ↔ i.low * den ≤ num ∧ num ≤ i.high * den ∧
      (i.closed = false → i.low * den < num ∧ num < i.high * den) := by
  have hp : (0 : ℚ) < den := by exact_mod_cast hd
  have hu := unit_pos i.unit
  have low_le : i.low * 2 ^ i.unit ≤ (num / den * 2 ^ i.unit : ℚ) ↔ i.low * den ≤ num := by
    rw [mul_le_mul_iff_left₀ hu, le_div_iff₀ hp]
    exact_mod_cast Iff.rfl
  have le_high : (num / den * 2 ^ i.unit : ℚ) ≤ i.high * 2 ^ i.unit ↔ num ≤ i.high * den := by
    rw [mul_le_mul_iff_left₀ hu, div_le_iff₀ hp]
    exact_mod_cast Iff.rfl
  have low_lt : i.low * 2 ^ i.unit < (num / den * 2 ^ i.unit : ℚ) ↔ i.low * den < num := by
    rw [mul_lt_mul_iff_left₀ hu, lt_div_iff₀ hp]
    exact_mod_cast Iff.rfl
  have lt_high : (num / den * 2 ^ i.unit : ℚ) < i.high * 2 ^ i.unit ↔ num < i.high * den := by
    rw [mul_lt_mul_iff_left₀ hu, div_lt_iff₀ hp]
    exact_mod_cast Iff.rfl
  constructor
  · rintro ⟨hl, hh, hi⟩
    exact ⟨low_le.mp hl, le_high.mp hh, fun hc => ⟨low_lt.mp (hi hc).1, lt_high.mp (hi hc).2⟩⟩
  · rintro ⟨hl, hh, hi⟩
    exact ⟨low_le.mpr hl, le_high.mpr hh, fun hc => ⟨low_lt.mpr (hi hc).1, lt_high.mpr (hi hc).2⟩⟩

/-- Of two intervals with a common number the one with the greater unit does not begin behind the
end of the other one. -/
theorem contains_both {i j : Interval} (hu : i.unit ≤ j.unit) {y : ℚ} (hi : i.Contains y)
    (hj : j.Contains y) : j.low * 2 ^ (j.unit - i.unit).toNat ≤ i.high ∧
      (i.closed = false ∨ j.closed = false → j.low * 2 ^ (j.unit - i.unit).toNat < i.high) := by
  have hp := unit_pos i.unit
  have scaled : (2 : ℚ) ^ j.unit = 2 ^ (j.unit - i.unit).toNat * 2 ^ i.unit := by
    rw [← zpow_natCast, ← zpow_add₀ (by norm_num : (2 : ℚ) ≠ 0), Int.toNat_of_nonneg (by omega)]
    congr 1
    omega
  have hl := hj.low
  have hs := hj.inside
  rw [scaled, ← mul_assoc] at hl hs
  constructor
  · have h := (mul_le_mul_iff_left₀ hp).mp (hl.trans hi.high)
    exact_mod_cast h
  · intro hc
    have hb : (j.low * 2 ^ (j.unit - i.unit).toNat : ℚ) * 2 ^ i.unit < i.high * 2 ^ i.unit := by
      rcases hc with hc | hc
      · exact hl.trans_lt (hi.inside hc).2
      · exact (hs hc).1.trans_le hi.high
    have h := (mul_lt_mul_iff_left₀ hp).mp hb
    exact_mod_cast h

end Interval

section

variable {m n : ℕ} {e f : ℤ}

theorem normal_low (h : Normal m e) :
    (Interval.ofFinite m e).low = if m = 2 ^ 52 then 4 * m - 1 else 4 * m - 2 := by
  have ht : twoTo 52 = 2 ^ 52 := rfl
  rw [Interval.ofFinite, ht]
  by_cases hm : m = 2 ^ 52
  · rw [if_pos ⟨hm, h.above⟩, if_pos hm]
  · rw [if_neg (fun hc => hm hc.1), if_neg hm]

theorem closed_iff (m : ℕ) (e : ℤ) : (Interval.ofFinite m e).closed = false ↔ m % 2 = 1 := by
  simp [Interval.ofFinite]

theorem normal_low_le (h : Normal m e) : 2 ^ 54 - 1 ≤ (Interval.ofFinite m e).low := by
  have hm := h.least
  rw [normal_low h]
  split <;> omega

theorem held_apart (hm : Held m e) (hn : Held n f) (h : e < f ∨ e = f ∧ m < n) {y : ℚ}
    (hy : (Interval.ofFinite m e).Contains y) : ¬(Interval.ofFinite n f).Contains y := by
  intro hz
  have hm1 := hm.most
  have hm2 := hm.above
  have hu : (Interval.ofFinite m e).unit ≤ (Interval.ofFinite n f).unit := by
    simp only [Interval.ofFinite]
    omega
  obtain ⟨hle, hlt⟩ := Interval.contains_both hu hy hz
  rw [closed_iff, closed_iff] at hlt
  have high : (Interval.ofFinite m e).high = 4 * m + 2 := rfl
  have unit : (Interval.ofFinite n f).unit - (Interval.ofFinite m e).unit = f - e := by
    simp only [Interval.ofFinite]
    omega
  rw [high, unit] at hle hlt
  rcases h with h | ⟨rfl, h⟩
  · -- Only the greatest of the lower numbers reaches so far, and its end is not included.
    have hl := normal_low_le (hn.normal (by omega))
    have hk : 2 ^ 1 ≤ 2 ^ (f - e).toNat := Nat.pow_le_pow_right (by omega) (by omega)
    have hb := Nat.mul_le_mul hl hk
    omega
  · -- One of two neighbours is odd.
    have hl : (Interval.ofFinite n e).low = 4 * n - 2 := by
      refine congrArg (4 * n - ·) (if_neg fun hc => ?_)
      have ht : twoTo 52 = 2 ^ 52 := rfl
      have := hm.least hc.2
      omega
    rw [hl, Int.sub_self] at hle hlt
    simp only [Int.toNat_zero, Nat.pow_zero, Nat.mul_one] at hle hlt
    omega

theorem held_unique (hm : Held m e) (hn : Held n f) {y : ℚ}
    (hy : (Interval.ofFinite m e).Contains y) (hz : (Interval.ofFinite n f).Contains y) :
    m = n ∧ e = f := by
  by_contra hd
  rcases lt_trichotomy e f with h | rfl | h
  · exact held_apart hm hn (.inl h) hy hz
  · rcases Nat.lt_trichotomy m n with h | rfl | h
    · exact held_apart hm hn (.inr ⟨rfl, h⟩) hy hz
    · exact hd ⟨rfl, rfl⟩
    · exact held_apart hn hm (.inr ⟨rfl, h⟩) hz hy
  · exact held_apart hn hm (.inl h) hz hy

end

theorem round_quotient_near (num : ℕ) {den : ℕ} (hd : 0 < den) :
    let m := Binary64.roundQuotient num den
    2 * (m * den) ≤ 2 * num + den ∧ 2 * num ≤ 2 * (m * den) + den ∧
      (m % 2 = 1 → 2 * (m * den) < 2 * num + den ∧ 2 * num < 2 * (m * den) + den) := by
  have hq := Nat.div_add_mod' num den
  have hr := Nat.mod_lt num hd
  have one : (num / den + 1) * den = num / den * den + den := Nat.succ_mul _ _
  intro m
  simp only [m, Binary64.roundQuotient]
  split
  next h => omega
  next h =>
    split
    next h' => omega
    next h' =>
      rcases Nat.mod_two_eq_zero_or_one (num / den) with hp | hp
      · rw [hp, Nat.add_zero]
        omega
      · rw [hp]
        omega

theorem quarters (e : ℤ) : (2 : ℚ) ^ e = 4 * 2 ^ (e - 2) := by
  rw [zpow_sub₀ (by norm_num)]
  norm_num
  ring

theorem quotient_units (num den : ℕ) (e : ℤ) :
    (num / den * 2 ^ e : ℚ) = ((4 * num : ℕ) : ℚ) / den * 2 ^ (e - 2) ∧
      (num / den * 2 ^ e : ℚ) = ((2 * num : ℕ) : ℚ) / den * 2 ^ (e + 1 - 2) := by
  have two : (2 : ℚ) ^ e = 2 * 2 ^ (e + 1 - 2) := by
    rw [show e + 1 - 2 = e - 1 by ring, zpow_sub₀ (by norm_num)]
    norm_num
    ring
  constructor
  · rw [quarters e]
    push_cast
    ring
  · rw [two]
    push_cast
    ring

/-- A quotient in the range of the 53 bits is rounded to a number in whose interval it lies, and so
is a smaller one at the least exponent. -/
theorem quotient_contains {num den : ℕ} {e : ℤ} (hd : 0 < den)
    (hl : -1074 < e → 2 ^ 52 * den ≤ num) (hu : num < 2 ^ 53 * den) (he : -1074 ≤ e) :
    let m := Binary64.roundQuotient num den
    let r : ℕ × ℤ := if m = twoTo 53 then (twoTo 52, e + 1) else (m, e)
    Held r.1 r.2 ∧ (Interval.ofFinite r.1 r.2).Contains (num / den * 2 ^ e) := by
  intro m r
  obtain ⟨hn, hf, ho⟩ := round_quotient_near num hd
  change 2 * (m * den) ≤ 2 * num + den at hn
  change 2 * num ≤ 2 * (m * den) + den at hf
  change m % 2 = 1 → 2 * (m * den) < 2 * num + den ∧ 2 * num < 2 * (m * den) + den at ho
  have t52 : twoTo 52 = 2 ^ 52 := rfl
  have t53 : twoTo 53 = 2 ^ 53 := rfl
  have least (he : -1074 < e) : 2 ^ 52 ≤ m := by
    by_contra h
    have hm := Nat.mul_le_mul_right den (Nat.lt_of_not_le h)
    have hl := hl he
    rw [Nat.succ_mul] at hm
    omega
  have most : m ≤ 2 ^ 53 := by
    by_contra h
    have hm := Nat.mul_le_mul_right den (Nat.lt_of_not_le h)
    rw [Nat.succ_mul] at hm
    omega
  obtain ⟨quarters, halves⟩ := quotient_units num den e
  by_cases hm : m = twoTo 53
  · have hr : r = (2 ^ 52, e + 1) := if_pos hm
    have normal : Normal (2 ^ 52) (e + 1) := ⟨le_refl _, by norm_num, by omega⟩
    have high : (Interval.ofFinite (2 ^ 52) (e + 1)).high = 4 * 2 ^ 52 + 2 := rfl
    rw [hm, t53] at hn
    rw [hr, halves]
    refine ⟨normal.held, (Interval.contains_quotient _ _ hd).mpr ?_⟩
    rw [normal_low normal, if_pos rfl, high, closed_iff]
    omega
  · have hr : r = (m, e) := if_neg hm
    have high : (Interval.ofFinite m e).high = 4 * m + 2 := rfl
    rw [hr, quarters]
    dsimp only
    refine ⟨⟨by omega, he, least⟩, (Interval.contains_quotient _ _ hd).mpr ?_⟩
    have most_le : (4 * m + 2) * den = 4 * (m * den) + 2 * den := by rw [Nat.add_mul, Nat.mul_assoc]
    by_cases hc : m = twoTo 52 ∧ -1074 < e
    · have low : (Interval.ofFinite m e).low = 4 * m - 1 := congrArg (4 * m - ·) (if_pos hc)
      have first : m * den = 2 ^ 52 * den := by rw [hc.1, t52]
      have hl := hl hc.2
      rw [low, high, closed_iff, most_le, Nat.sub_mul, Nat.mul_assoc]
      omega
    · have low : (Interval.ofFinite m e).low = 4 * m - 2 := congrArg (4 * m - ·) (if_neg hc)
      have den_le : m = 0 ∨ den ≤ m * den :=
        (Nat.eq_zero_or_pos m).imp_right (Nat.le_mul_of_pos_left den)
      rw [low, high, closed_iff, most_le, Nat.sub_mul, Nat.mul_assoc]
      omega

theorem power_parts {b : ℚ} (hb : b ≠ 0) (z : ℤ) : b ^ z.toNat = b ^ z * b ^ (-z).toNat := by
  rcases le_total 0 z with h | h
  · rw [Int.toNat_of_nonpos (by omega : -z ≤ 0), pow_zero, mul_one]
    exact_mod_cast congrArg (b ^ ·) (Int.toNat_of_nonneg h)
  · rw [Int.toNat_of_nonpos h, pow_zero, ← zpow_natCast b, Int.toNat_of_nonneg (by omega),
      ← zpow_add₀ hb, add_neg_cancel, zpow_zero]

theorem scaled_quotient (num : ℕ) {den : ℕ} (hd : 0 < den) (e : ℤ) :
    ((num * 2 ^ (-e).toNat : ℕ) : ℚ) / ((den * 2 ^ e.toNat : ℕ) : ℚ) * 2 ^ e = num / den := by
  have hp : (2 : ℚ) ^ e.toNat ≠ 0 := by positivity
  have hq : (den : ℚ) ≠ 0 := by exact_mod_cast hd.ne'
  push_cast
  rw [div_mul_eq_mul_div, div_eq_div_iff (mul_ne_zero hq hp) hq, power_parts (by norm_num) e]
  ring

theorem scaled_le (num : ℕ) {den : ℕ} (hd : 0 < den) (e : ℤ) (a : ℕ) :
    a * (den * 2 ^ e.toNat) ≤ num * 2 ^ (-e).toNat ↔ (a * 2 ^ e : ℚ) ≤ num / den := by
  have hp : (0 : ℚ) < (den * 2 ^ e.toNat : ℕ) := by positivity
  rw [← scaled_quotient num hd e, mul_le_mul_iff_left₀ (Interval.unit_pos e), le_div_iff₀ hp]
  exact_mod_cast Iff.rfl

theorem leading_bounds {num den : ℕ} (hn : 0 < num) (hd : 0 < den) :
    (2 ^ Binary64.leadingExponent num den : ℚ) ≤ num / den ∧
      (num / den : ℚ) < 2 ^ (Binary64.leadingExponent num den + 1) := by
  have hq : (0 : ℚ) < den := by exact_mod_cast hd
  have num_low : (2 ^ num.log2 : ℚ) ≤ num := by exact_mod_cast Nat.log2_self_le hn.ne'
  have num_high : (num : ℚ) < 2 ^ (num.log2 + 1) := by exact_mod_cast Nat.lt_log2_self
  have den_low : (2 ^ den.log2 : ℚ) ≤ den := by exact_mod_cast Nat.log2_self_le hd.ne'
  have den_high : (den : ℚ) < 2 ^ (den.log2 + 1) := by exact_mod_cast Nat.lt_log2_self
  have two : (2 : ℚ) ≠ 0 := by norm_num
  let k : ℤ := num.log2 - den.log2
  have below : (2 ^ (k - 1) : ℚ) ≤ num / den := by
    rw [le_div_iff₀ hq]
    refine (mul_le_mul_of_nonneg_left den_high.le (by positivity)).trans (le_trans ?_ num_low)
    rw [← zpow_natCast, ← zpow_natCast, ← zpow_add₀ two]
    refine le_of_eq (congrArg _ ?_)
    push_cast
    omega
  have above : (num / den : ℚ) < 2 ^ (k + 1) := by
    rw [div_lt_iff₀ hq]
    refine num_high.trans_le (le_trans ?_ (mul_le_mul_of_nonneg_left den_low (by positivity)))
    rw [← zpow_natCast, ← zpow_natCast, ← zpow_add₀ two]
    refine le_of_eq (congrArg _ ?_)
    push_cast
    omega
  have compare := scaled_le num hd k 1
  rw [Nat.one_mul, Nat.cast_one, one_mul] at compare
  by_cases hc : den * 2 ^ k.toNat ≤ num * 2 ^ (-k).toNat
  · have hk : Binary64.leadingExponent num den = k := if_pos hc
    rw [hk]
    exact ⟨compare.mp hc, above⟩
  · have hk : Binary64.leadingExponent num den = k - 1 := if_neg hc
    rw [hk, sub_add_cancel]
    exact ⟨below, not_le.mp (mt compare.mpr hc)⟩

/-- A quotient is rounded to a number in whose interval it lies. -/
theorem quotient_rounds (negative : Bool) {num den : ℕ} (hn : 0 < num) (hd : 0 < den) :
    ∃ m e, Held m e ∧ (Interval.ofFinite m e).Contains (num / den) ∧
      Binary64.leadingExponent num den - 52 ≤ e ∧
      Binary64.ofQuotient negative num den =
        if 971 < e then .infinite negative else .finite negative m e := by
  obtain ⟨low, high⟩ := leading_bounds hn hd
  let e : ℤ := max (Binary64.leadingExponent num den - 52) (-1074)
  have positive : 0 < den * 2 ^ e.toNat := by positivity
  have two : (2 : ℚ) ≠ 0 := by norm_num
  have least (he : -1074 < e) : 2 ^ 52 * (den * 2 ^ e.toNat) ≤ num * 2 ^ (-e).toNat := by
    refine (scaled_le num hd e _).mpr (le_trans (le_of_eq ?_) low)
    rw [Nat.cast_pow, Nat.cast_ofNat, ← zpow_natCast, ← zpow_add₀ two]
    refine congrArg _ ?_
    push_cast
    omega
  have most : num * 2 ^ (-e).toNat < 2 ^ 53 * (den * 2 ^ e.toNat) := by
    refine not_le.mp fun h => absurd ((scaled_le num hd e _).mp h) (not_le.mpr ?_)
    refine high.trans_le ?_
    rw [Nat.cast_pow, Nat.cast_ofNat, ← zpow_natCast, ← zpow_add₀ two]
    refine zpow_le_zpow_right₀ (by norm_num) ?_
    push_cast
    omega
  obtain ⟨held, contains⟩ := quotient_contains positive least most (by omega)
  rw [scaled_quotient num hd e] at contains
  refine ⟨_, _, held, contains, ?_, ?_⟩
  · split <;> simp only <;> omega
  · rw [Binary64.ofQuotient, if_neg hn.ne']
    rfl

theorem whole_rounds (negative : Bool) {a : ℕ} (ha : 0 < a) : ∃ m e, Normal m e ∧ -52 ≤ e ∧
    (Interval.ofFinite m e).Contains a ∧ Binary64.ofQuotient negative a 1 =
      if 971 < e then .infinite negative else .finite negative m e := by
  have lead : Binary64.leadingExponent a 1 = a.log2 := by
    have h1 : Nat.log2 1 = 0 := by decide
    have h : 2 ^ a.log2 ≤ a := Nat.log2_self_le (by omega)
    simp [Binary64.leadingExponent, twoTo, h, h1]
  obtain ⟨m, e, held, contains, le, rounds⟩ := quotient_rounds negative ha Nat.one_pos
  rw [lead] at le
  rw [Nat.cast_one, div_one] at contains
  exact ⟨m, e, held.normal (by omega), by omega, contains, rounds⟩

section

variable {m : ℕ} {e : ℤ} (h : Normal m e)

include h

theorem whole_exact (he : e ≤ 0) {a : ℕ} (hc : (Interval.ofFinite m e).Contains a) :
    (m * 2 ^ e : ℚ) = a := by
  have hw : (a : ℚ) = ((a * 2 ^ (-e).toNat : ℕ) : ℚ) / ((1 : ℕ) : ℚ) * 2 ^ e := by
    have hp := power_parts (by norm_num : (2 : ℚ) ≠ 0) e
    rw [Int.toNat_of_nonpos he, pow_zero] at hp
    push_cast
    rw [div_one, mul_assoc, mul_comm (2 ^ (-e).toNat : ℚ), ← hp, mul_one]
  have hm : a * 2 ^ (-e).toNat = m := by
    have high : (Interval.ofFinite m e).high = 4 * m + 2 := rfl
    have low := normal_low h
    rw [hw, (quotient_units _ _ e).1] at hc
    obtain ⟨hl, hh, -⟩ := (Interval.contains_quotient _ _ Nat.one_pos).mp hc
    rw [high] at hh
    split at low <;> omega
  rw [hw, hm]
  simp

theorem whole_finite (he : e ≤ 971) {a : ℕ} (ha : 0 < a) (negative s : Bool) :
    Binary64.ofQuotient negative a 1 = .finite s m e ↔
      negative = s ∧ (Interval.ofFinite m e).Contains a := by
  obtain ⟨n, f, hn, -, hc, hr⟩ := whole_rounds negative ha
  rw [hr]
  constructor
  · intro hf
    split at hf
    · cases hf
    · cases hf
      exact ⟨rfl, hc⟩
  · rintro ⟨rfl, hm⟩
    obtain ⟨rfl, rfl⟩ := held_unique hn.held h.held hc hm
    rw [if_neg (by omega)]

theorem of_int_same (he : e ≤ 971) {n : ℤ} (hn : n ≠ 0)
    (hc : (Interval.ofFinite m e).Contains n.natAbs) (j : ℤ) :
    Binary64.ofInt j = Binary64.ofInt n ↔
      j ≠ 0 ∧ (j < 0 ↔ n < 0) ∧ (Interval.ofFinite m e).Contains j.natAbs := by
  have hs : Binary64.ofInt n = .finite (n < 0) m e :=
    (whole_finite h he (Int.natAbs_pos.mpr hn) _ _).mpr ⟨rfl, hc⟩
  rw [hs]
  by_cases hj : j = 0
  · refine iff_of_false (fun hz => ?_) fun hz => hz.1 hj
    have zero : Binary64.ofInt 0 = .finite false 0 (-1074) := rfl
    rw [hj, zero, Binary64.finite.injEq] at hz
    have hm := h.least
    omega
  · rw [Binary64.ofInt, whole_finite h he (Int.natAbs_pos.mpr hj), decide_eq_decide]
    exact (and_iff_right hj).symm

end

end CohortQuery.Decimal
