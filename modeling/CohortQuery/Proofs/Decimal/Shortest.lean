import CohortQuery.Decimal.Layout
import CohortQuery.Proofs.Decimal.Grid
import CohortQuery.Proofs.Text.Numeral

/-!
# Shortest numerals of whole numbers

A whole number is written as another one that is rounded to the same number: the one with the most
zeros at its end, and of those with as many the nearest.
-/

set_option autoImplicit false

namespace CohortQuery.Decimal

theorem strip_zeros {d : ℕ} (hd : 0 < d) (p : ℤ) (tries : ℕ) : ∃ d' k : ℕ,
    stripZeros d p tries = (d', p + k) ∧ 0 < d' ∧ d' * 10 ^ k = d := by
  induction tries generalizing d p with
  | zero => exact ⟨d, 0, by simp [stripZeros], hd, by simp⟩
  | succ tries ih =>
    unfold stripZeros
    split
    next h =>
      obtain ⟨c, rfl⟩ := Nat.dvd_of_mod_eq_zero h.2
      rw [Nat.mul_div_cancel_left c (by norm_num)]
      obtain ⟨d', k, hs, hp, hv⟩ := ih (Nat.pos_of_mul_pos_left hd) (p + 1)
      refine ⟨d', k + 1, ?_, hp, by rw [← hv]; ring⟩
      rw [hs]
      congr 1
      push_cast
      ring
    next => exact ⟨d, 0, by simp, hd, by simp⟩

theorem ten_to (n : ℕ) : tenTo n = 10 ^ n := rfl

theorem digits_shifted {d : ℕ} (hd : 0 < d) (p : ℕ) :
    Nat.toDigits 10 (d * 10 ^ p) = Nat.toDigits 10 d ++ zeros p := by
  induction p with
  | zero => simp [zeros]
  | succ p ih =>
    have hp : 0 < d * 10 ^ p := by positivity
    have step := Nat.toDigits_append_toDigits (b := 10) (by norm_num) hp (by norm_num : 0 < 10)
    rw [show d * 10 ^ (p + 1) = 10 * (d * 10 ^ p) + 0 by ring, ← step, ih, List.append_assoc]
    simp [zeros, List.replicate_succ']

section

variable {m : ℕ} {e : ℤ}

theorem middle_eq (m : ℕ) (e : ℤ) : (Interval.ofFinite m e).middle = m * 2 ^ e := by
  have hm : (Interval.ofFinite m e).middle = (4 * m : ℕ) * 2 ^ (e - 2) := rfl
  rw [hm, quarters e]
  push_cast
  ring

theorem contains_halves {f y : ℕ} (hy : (Interval.ofFinite m (f + 1)).Contains y) :
    (Interval.ofFinite m (f + 1)).low * 2 ^ f ≤ 2 * y ∧ 2 * y ≤ (4 * m + 2) * 2 ^ f := by
  have unit : (2 : ℚ) ^ (Interval.ofFinite m (f + 1)).unit = 2 ^ f / 2 := by
    have hu : (Interval.ofFinite m (f + 1)).unit = f - 1 := by
      simp only [Interval.ofFinite]
      ring
    rw [hu, zpow_sub₀ (by norm_num), zpow_natCast, zpow_one]
  have high : (Interval.ofFinite m (f + 1)).high = 4 * m + 2 := rfl
  have hl := hy.low
  have hh := hy.high
  rw [unit, mul_div_assoc', div_le_iff₀ (by norm_num), mul_comm (y : ℚ)] at hl
  rw [unit, mul_div_assoc', le_div_iff₀ (by norm_num), mul_comm (y : ℚ), high] at hh
  exact ⟨by exact_mod_cast hl, by exact_mod_cast hh⟩

theorem around (hm : 0 < m) : (Interval.ofFinite m e).Around := by
  constructor
  · refine Nat.sub_lt (Nat.mul_pos (by norm_num) hm) ?_
    split <;> norm_num
  · exact Nat.lt_add_of_pos_right (by norm_num)

/-- The interval is wider than `10^-16` of its middle, so a grid that is finer than that has a
number in it. -/
theorem fine_contained (hm : 0 < m) (h : m < 2 ^ 53) (q : ℤ)
    (hq : (10 ^ (q + 16) : ℚ) ≤ m * 2 ^ e) :
    ∃ d : ℕ, (Interval.ofFinite m e).Contains (d * 10 ^ q) := by
  let i := Interval.ofFinite m e
  have hu := Interval.unit_pos i.unit
  have wide : 4 * m + i.low * 10 ^ 16 < i.high * 10 ^ 16 := by
    have ht : twoTo 52 = 2 ^ 52 := rfl
    have high : i.high = 4 * m + 2 := rfl
    by_cases hc : m = twoTo 52 ∧ -1074 < e
    · have low : i.low = 4 * m - 1 := congrArg (4 * m - ·) (if_pos hc)
      omega
    · have low : i.low = 4 * m - 2 := congrArg (4 * m - ·) (if_neg hc)
      omega
  have wide_units := (mul_lt_mul_iff_left₀ hu).mpr
    (by exact_mod_cast wide : (4 * m + i.low * 10 ^ 16 : ℚ) < i.high * 10 ^ 16)
  have middle : i.middle = m * 2 ^ e := middle_eq m e
  have units : (4 * m * 2 ^ i.unit : ℚ) = m * 2 ^ e := by
    rw [← middle]
    simp [Interval.middle, i, Interval.ofFinite]
  have hb := i.below_le q
  have hl := i.lt_above q
  obtain ⟨low_lt, lt_high⟩ := Interval.middle_between (around (e := e) hm)
  rw [zpow_add₀ (by norm_num)] at hq
  rw [middle] at hb hl
  by_contra none
  have low : (i.below q * 10 ^ q : ℚ) ≤ i.low * 2 ^ i.unit := by
    by_contra hlt
    exact none ⟨_, Interval.contains_of_lt (not_le.mp hlt) (hb.trans_lt (middle ▸ lt_high))⟩
  have high : (i.high * 2 ^ i.unit : ℚ) ≤ (i.below q + 1 : ℕ) * 10 ^ q := by
    by_contra hlt
    exact none ⟨_, Interval.contains_of_lt ((middle ▸ low_lt).trans hl) (not_le.mp hlt)⟩
  push_cast at high
  norm_num at hq
  linarith

variable (h : Normal m e)

include h

theorem contained_apart {x y : ℚ} (hx : (Interval.ofFinite m e).Contains x)
    (hy : (Interval.ofFinite m e).Contains y) : y - x ≤ 2 ^ e := by
  have hu := Interval.unit_pos (e - 2)
  have low : (4 * m - 2 : ℚ) * 2 ^ (e - 2) ≤ x := by
    refine le_trans (mul_le_mul_of_nonneg_right ?_ hu.le) hx.low
    have hl : 4 * m ≤ (Interval.ofFinite m e).low + 2 := by
      have low := normal_low h
      split at low <;> omega
    have hq : (4 * m : ℚ) ≤ (Interval.ofFinite m e).low + 2 := by exact_mod_cast hl
    linarith
  have high : y ≤ (4 * m + 2 : ℚ) * 2 ^ (e - 2) := by
    have hh := hy.high
    have he : ((Interval.ofFinite m e).high : ℚ) = 4 * m + 2 := by
      simp [Interval.ofFinite]
    rwa [he] at hh
  rw [quarters e]
  linarith

theorem grid_apart {x y p : ℕ} (hx : (Interval.ofFinite m e).Contains x)
    (hy : (Interval.ofFinite m e).Contains y) (hxp : 10 ^ p ∣ x) (hyp : 10 ^ p ∣ y) (hne : x ≠ y) :
    (10 ^ p : ℚ) ≤ 2 ^ e := by
  wlog hlt : x < y generalizing x y
  · exact this hy hx hyp hxp hne.symm (by omega)
  · have hp : 10 ^ p ≤ y - x := Nat.le_of_dvd (by omega) (Nat.dvd_sub hyp hxp)
    have hc : ((10 ^ p + x : ℕ) : ℚ) ≤ y := by exact_mod_cast (by omega : 10 ^ p + x ≤ y)
    have ha := contained_apart h hx hy
    push_cast at hc
    linarith

theorem roundest_small {a k : ℕ} (hc : (Interval.ofFinite m e).Contains a) (ha : a ≤ 2 ^ 53)
    (hk : (Interval.ofFinite m e).Roundest k) : k = a := by
  rcases le_or_gt e 0 with he | he
  · exact_mod_cast (whole_exact h he hk.contained).symm.trans (whole_exact h he hc)
  · obtain ⟨f, hf⟩ := Int.eq_ofNat_of_zero_le (by omega : 0 ≤ e - 1)
    obtain rfl : e = f + 1 := by omega
    obtain ⟨low_a, -⟩ := contains_halves hc
    obtain ⟨low_k, high_k⟩ := contains_halves hk.contained
    have low := normal_low h
    have low_le := normal_low_le h
    have first : f = 0 := by
      by_contra hne
      have two_le : 2 ^ 1 ≤ 2 ^ f := Nat.pow_le_pow_right (by norm_num) (by omega)
      have wide := Nat.mul_le_mul low_le two_le
      omega
    subst first
    have hm := h.least
    have middle : (Interval.ofFinite m ((0 : ℕ) + 1)).middle = a := by
      have hv : 2 * m = a := by
        split at low <;> omega
      rw [middle_eq, ← hv]
      push_cast
      ring
    by_contra hne
    have next : k = 2 ^ 53 + 1 := by
      split at low <;> omega
    have no_zeros (q : ℕ) (hq : 10 ^ q ∣ k) : 10 ^ q ∣ a := by
      cases q with
      | zero => exact one_dvd a
      | succ q =>
        have ten := (Dvd.intro_left (10 ^ q) rfl : 10 ∣ 10 ^ (q + 1)).trans hq
        omega
    have near := hk.nearest hc no_zeros (Ne.symm hne)
    rw [middle, sub_self, abs_zero] at near
    exact absurd near (not_lt.mpr (abs_nonneg _))

end

section

variable {m w : ℕ} {e : ℤ} (hw : (m * 2 ^ e : ℚ) = w)

include hw

theorem grid_whole {p : ℕ} (hp : (10 ^ p : ℚ) ≤ 2 ^ e) (hd : 10 ^ p ∣ 2 * w) : 10 ^ p ∣ w := by
  have one : (1 : ℚ) ≤ 10 ^ p := one_le_pow₀ (by norm_num)
  have he : 0 ≤ e := by
    by_contra hn
    exact absurd (one.trans hp) (not_le.mpr (zpow_lt_one_of_neg₀ (by norm_num) (by omega)))
  obtain ⟨f, rfl⟩ := Int.eq_ofNat_of_zero_le he
  rw [zpow_natCast] at hp hw
  have whole : m * 2 ^ f = w := by exact_mod_cast hw
  have two_le : 2 ^ p ≤ 2 ^ f :=
    (Nat.pow_le_pow_left (by norm_num : 2 ≤ 10) p).trans (by exact_mod_cast hp)
  have p_le : p ≤ f := (Nat.pow_le_pow_iff_right (by norm_num)).mp two_le
  have two : 2 ^ p ∣ w := whole ▸ dvd_mul_of_dvd_right (pow_dvd_pow 2 p_le) m
  have parts : 10 ^ p = 2 ^ p * 5 ^ p := Nat.mul_pow 2 5 p
  have five : 5 ^ p ∣ w :=
    ((by decide : Nat.Coprime 5 2).pow_left p).dvd_of_dvd_mul_left
      ((parts ▸ dvd_mul_left (5 ^ p) (2 ^ p)).trans hd)
  rw [parts]
  exact ((by decide : Nat.Coprime 2 5).pow p p).mul_dvd_of_dvd_of_dvd two five

variable (h : Normal m e)

include h

theorem whole_pos : 0 < w := by
  have hm : (0 : ℚ) < m := by exact_mod_cast lt_of_lt_of_le (by norm_num) h.least
  have hp : (0 : ℚ) < w := hw ▸ mul_pos hm (by positivity)
  exact_mod_cast hp

theorem first_place : (Interval.ofFinite m e).firstPlace = (Nat.toDigits 10 w).length - 1 := by
  have hp := whole_pos hw h
  have whole : 4 * m * 2 ^ (e - 2).toNat = w * 2 ^ (-(e - 2)).toNat := by
    have hq : ((4 * m * 2 ^ (e - 2).toNat : ℕ) : ℚ) = (w * 2 ^ (-(e - 2)).toNat : ℕ) := by
      push_cast
      rw [power_parts (by norm_num) (e - 2), ← hw, quarters e]
      ring
    exact_mod_cast hq
  have scaled (g : ℕ) : 4 * m * 2 ^ (e - 2).toNat * g / 2 ^ (-(e - 2)).toNat = w * g := by
    rw [whole, mul_right_comm, Nat.mul_div_cancel _ (Nat.two_pow_pos _)]
  have hd : (Interval.ofFinite m e).firstPlace = (Nat.toDigits 10 (4 * m * 2 ^ (e - 2).toNat *
      tenTo 400 / 2 ^ (-(e - 2)).toNat)).length - 401 := rfl
  rw [hd, scaled, ten_to, digits_shifted hp, List.length_append, zeros, List.length_replicate]
  push_cast
  ring

theorem grid_contained : ∃ (q : ℤ) (d : ℕ), (Interval.ofFinite m e).Contains (d * 10 ^ q) ∧
    0 ≤ q ∧ q ≤ (Interval.ofFinite m e).firstPlace ∧
    (Interval.ofFinite m e).firstPlace - 17 < q := by
  have first := first_place hw h
  have hp := whole_pos hw h
  have ha := around (e := e) h.pos
  have length : (Nat.toDigits 10 w).length ≠ 0 := by simp
  have leading : ¬w < 10 ^ ((Nat.toDigits 10 w).length - 1) ∨ (Nat.toDigits 10 w).length = 1 := by
    by_contra hn
    obtain ⟨hlt, hne⟩ := not_or.mp hn
    have short := (Nat.length_toDigits_le_iff (by norm_num) (by omega)).mpr (not_not.mp hlt)
    omega
  generalize (Nat.toDigits 10 w).length = l at first length leading
  rcases le_total (Interval.ofFinite m e).firstPlace 16 with hf | hf
  · obtain ⟨hl, hh⟩ := Interval.middle_between ha
    rw [middle_eq m e, hw] at hl hh
    exact ⟨0, w, by simpa using Interval.contains_of_lt hl hh, by omega⟩
  · obtain ⟨d, hd⟩ := fine_contained h.pos h.most ((Interval.ofFinite m e).firstPlace - 16) (by
      rw [hw, first, show ((l : ℤ) - 1 - 16 + 16) = (l - 1 : ℕ) by omega, zpow_natCast]
      exact_mod_cast Nat.not_lt.mp (leading.resolve_right (by omega)))
    exact ⟨_, d, hd, by omega⟩

theorem first_unique {x y f : ℕ} (hf : (Interval.ofFinite m e).firstPlace = f)
    (hx : (Interval.ofFinite m e).Contains x) (hy : (Interval.ofFinite m e).Contains y)
    (hxf : 10 ^ f ∣ x) (hyf : 10 ^ f ∣ y) : x = y := by
  by_contra hne
  have hle := grid_apart h hx hy hxf hyf hne
  have first := first_place hw h
  have hlt := (Nat.length_toDigits_le_iff (by norm_num) (by omega)).mp
    (by omega : (Nat.toDigits 10 w).length ≤ f + 1)
  have hwq : (w : ℚ) < 10 ^ f * 10 := by exact_mod_cast hlt
  have hm : (2 ^ 52 : ℚ) ≤ m := by exact_mod_cast h.least
  have large := mul_le_mul_of_nonneg_right hm (by positivity : (0 : ℚ) ≤ 2 ^ e)
  norm_num at large
  linarith

variable {f p c : ℕ} (hf : (Interval.ofFinite m e).firstPlace = f)
  (hc : (Interval.ofFinite m e).Coarsest f p c)

include hc

theorem coarsest_nearest {j : ℕ} (hj : (Interval.ofFinite m e).Contains j) (hd : 10 ^ p ∣ j)
    (hne : j ≠ c * 10 ^ p) : |((c * 10 ^ p : ℕ) : ℚ) - w| < |(j : ℚ) - w| := by
  have middle := (middle_eq m e).trans hw
  obtain ⟨contained, least⟩ := Interval.nearest_whole hc.nearest
  rw [middle] at least
  refine lt_of_le_of_ne (least j hj hd) fun tie => ?_
  have hle := grid_apart h contained hj (dvd_mul_left _ c) hd hne.symm
  rcases abs_eq_abs.mp tie with same | other
  · exact hne (by exact_mod_cast (sub_left_inj.mp same).symm)
  · -- The middle of two numbers of the grid is on the grid itself, and nearer than both.
    have double : c * 10 ^ p + j = 2 * w := by
      have sum : ((c * 10 ^ p : ℕ) : ℚ) + j = 2 * w := by linarith
      exact_mod_cast sum
    have whole := grid_whole hw hle (double ▸ (dvd_mul_left _ c).add hd)
    obtain ⟨low_lt, lt_high⟩ := Interval.middle_between (around h.pos)
    rw [middle] at low_lt lt_high
    have zero := least w (Interval.contains_of_lt low_lt lt_high) whole
    rw [tie, sub_self, abs_zero, abs_nonpos_iff, sub_eq_zero] at zero
    have hjw : j = w := by exact_mod_cast zero
    omega

include hf

theorem coarsest_roundest : (Interval.ofFinite m e).Roundest (c * 10 ^ p) := by
  obtain ⟨contained, -⟩ := Interval.nearest_whole hc.nearest
  refine ⟨contained, ?_, ?_⟩
  · intro j hj r hr
    rcases Nat.le_total r f with hrf | hrf
    · exact (pow_dvd_pow 10 (Interval.coarsest_zeros hc hj hr hrf)).mul_left c
    · -- A multiple for the place of the first digit is the only one.
      have hjf := (pow_dvd_pow 10 hrf).trans hr
      have reached := hc.reached
      have hp : p = f := le_antisymm (by omega) (Interval.coarsest_zeros hc hj hjf le_rfl)
      rwa [first_unique hw h hf contained hj (hp ▸ dvd_mul_left _ c) hjf]
  · intro j hj hz hne
    rw [middle_eq, hw]
    exact coarsest_nearest hw h hc hj (hz p (dvd_mul_left _ c)) hne

omit hf hc

/-- The shortest decimal of a whole number is a whole number with the zeros of its exponent. -/
theorem shortest_roundest : ∃ d p : ℕ, 0 < d ∧ (Interval.ofFinite m e).Roundest (d * 10 ^ p) ∧
    shortest m e = (d, (p : ℤ)) := by
  obtain ⟨q, d, hd, hq, hqf, hqs⟩ := grid_contained hw h
  obtain ⟨c, p, hs, hqp, hc⟩ := Interval.search_coarsest (around h.pos) hd 17 _ hqf hqs
  obtain ⟨p, rfl⟩ := Int.eq_ofNat_of_zero_le (hq.trans hqp)
  obtain ⟨f, hf⟩ := Int.eq_ofNat_of_zero_le (hq.trans hqf)
  have roundest := coarsest_roundest hw h hf (hf ▸ hc)
  have positive : 0 < c := by
    have low : 0 < (Interval.ofFinite m e).low := lt_of_lt_of_le (by norm_num) (normal_low_le h)
    exact Nat.pos_of_mul_pos_right (by exact_mod_cast Interval.contains_pos low roundest.contained)
  obtain ⟨d, k, stripped, hp, hv⟩ := strip_zeros positive p 20
  refine ⟨d, p + k, hp, ?_, ?_⟩
  · have value : d * 10 ^ (p + k) = c * 10 ^ p := by
      rw [← hv]
      ring
    exact value ▸ roundest
  · rw [shortest, hs]
    exact stripped

end

theorem positional_whole {d : ℕ} (hd : 0 < d) (p : ℕ) :
    positional (Nat.toDigits 10 d) ((Nat.toDigits 10 d).length + p) [] =
      Nat.toDigits 10 (d * 10 ^ p) := by
  have hl : 0 < (Nat.toDigits 10 d).length := Nat.length_toDigits_pos
  rw [positional, if_neg (by omega), if_pos (by omega), digits_shifted hd, List.append_nil]
  congr 2
  omega

theorem plain_whole {m w : ℕ} {e : ℤ} (h : Normal m e) (hw : (m * 2 ^ e : ℚ) = w) : ∃ k : ℕ,
    0 < k ∧ (Interval.ofFinite m e).Roundest k ∧ ∀ negative, (Binary64.finite negative m e).plain =
      Text.signedNumeral (if negative then -k else k) := by
  obtain ⟨d, p, hd, hk, hs⟩ := shortest_roundest hw h
  have hm := h.least
  have hp : 0 < d * 10 ^ p := by positivity
  refine ⟨_, hp, hk, fun negative => ?_⟩
  have plain : (Binary64.finite negative m e).plain =
      signed negative (Nat.toDigits 10 (d * 10 ^ p)) := by
    rw [Binary64.plain, if_neg (by omega), hs, ← positional_whole hd p]
  rw [plain]
  generalize d * 10 ^ p = k at hp
  cases negative
  · have hn : ¬(k : ℤ) < 0 := by omega
    simp [signed, Text.signedNumeral, Text.numeral, hn]
  · have hn : (-k : ℤ) < 0 := by omega
    simp only [signed, Text.signedNumeral, Text.numeral, if_true, hn, Int.natAbs_neg,
      Int.natAbs_natCast]
    exact String.toList_injective (by simp)

theorem integer_rounds {n : ℤ} (hn : n ≠ 0) (hl : -2 ^ 63 ≤ n) (hu : n < 2 ^ 64) :
    ∃ (m w : ℕ) (e : ℤ), Normal m e ∧ e ≤ 971 ∧ (m * 2 ^ e : ℚ) = w ∧
      (Interval.ofFinite m e).Contains n.natAbs := by
  obtain ⟨m, e, h, -, hc, -⟩ := whole_rounds false (Int.natAbs_pos.mpr hn)
  rcases le_or_gt e 0 with he | he
  · exact ⟨m, _, e, h, by omega, whole_exact h he hc, hc⟩
  · obtain ⟨f, hf⟩ := Int.eq_ofNat_of_zero_le (by omega : 0 ≤ e - 1)
    obtain rfl : e = f + 1 := by omega
    refine ⟨m, m * 2 ^ (f + 1), _, h, ?_, by push_cast; exact_mod_cast rfl, hc⟩
    obtain ⟨low, -⟩ := contains_halves hc
    have low_le := Nat.mul_le_mul_right (2 ^ f) (normal_low_le h)
    by_contra hlt
    have large : 2 ^ 12 ≤ 2 ^ f := Nat.pow_le_pow_right (by norm_num) (by omega)
    omega

end CohortQuery.Decimal
