import CohortQuery.Proofs.Decimal.Rounding
import Mathlib.Algebra.Order.Group.Abs

/-!
# Grids

The multiples of a power of ten are a grid. Which of them lie in an interval is found out by whole
numbers, and of those that do one of the two around the middle is the nearest. The search goes from
coarse grids to fine ones and stops at the first one that has a number in the interval.
-/

set_option autoImplicit false

namespace CohortQuery.Decimal

namespace Interval

variable (i : Interval)

def middle : ℚ :=
  i.center * 2 ^ i.unit

/-- The number is in the interval, but at neither end. -/
structure Around : Prop where
  low : i.low < i.center
  high : i.center < i.high

theorem factors (unit place : ℤ) : ∃ c : ℚ, 0 < c ∧ gridFactor unit place = 10 ^ place * c ∧
    unitFactor unit place = 2 ^ unit * c := by
  refine ⟨10 ^ (-place).toNat * 2 ^ (-unit).toNat, by positivity, ?_, ?_⟩
  · have h : gridFactor unit place = 10 ^ place.toNat * 2 ^ (-unit).toNat := rfl
    rw [h]
    push_cast
    rw [power_parts (by norm_num) place, mul_assoc]
  · have h : unitFactor unit place = 2 ^ unit.toNat * 10 ^ (-place).toNat := rfl
    rw [h]
    push_cast
    rw [power_parts (by norm_num) unit]
    ring

theorem grid_le (place : ℤ) (a b : ℕ) :
    (b * gridFactor i.unit place ≤ a * unitFactor i.unit place ↔
      (b * 10 ^ place : ℚ) ≤ a * 2 ^ i.unit) ∧
    (a * unitFactor i.unit place ≤ b * gridFactor i.unit place ↔
      (a * 2 ^ i.unit : ℚ) ≤ b * 10 ^ place) := by
  obtain ⟨c, hc, hg, hu⟩ := factors i.unit place
  constructor <;>
    rw [← @Nat.cast_le ℚ, Nat.cast_mul, Nat.cast_mul, hg, hu, ← mul_assoc, ← mul_assoc,
      mul_le_mul_iff_left₀ hc]

theorem covers_iff (place : ℤ) (d : ℕ) :
    i.covers place d = true ↔ i.Contains (d * 10 ^ place) := by
  have le (a b : ℕ) := (i.grid_le place a b).2
  have ge (a b : ℕ) := (i.grid_le place a b).1
  have lt (a b : ℕ) := not_congr (ge a b)
  have gt (a b : ℕ) := not_congr (le a b)
  simp only [not_le] at lt gt
  unfold covers
  cases hi : i.closed
  · simp only [Bool.false_eq_true, if_false, Bool.and_eq_true, decide_eq_true_eq, lt, gt]
    exact ⟨fun h => ⟨h.1.le, h.2.le, fun _ => h⟩, fun h => h.inside hi⟩
  · simp only [if_true, Bool.and_eq_true, decide_eq_true_eq, le, ge]
    exact ⟨fun h => ⟨h.1, h.2, fun hf => by simp [hi] at hf⟩, fun h => ⟨h.low, h.high⟩⟩

def below (place : ℤ) : ℕ :=
  i.center * unitFactor i.unit place / gridFactor i.unit place

theorem below_le (place : ℤ) : (i.below place * 10 ^ place : ℚ) ≤ i.middle :=
  (i.grid_le place i.center _).1.mp (Nat.div_mul_le_self _ _)

theorem lt_above (place : ℤ) : i.middle < (i.below place + 1 : ℕ) * 10 ^ place := by
  obtain ⟨c, hc, hg, -⟩ := factors i.unit place
  have hp : 0 < gridFactor i.unit place := by
    have h : (0 : ℚ) < gridFactor i.unit place := by
      rw [hg]
      positivity
    exact_mod_cast h
  have h := not_congr (i.grid_le place i.center (i.below place + 1)).1
  rw [not_le, not_le] at h
  exact h.mp (Nat.lt_mul_of_div_lt (Nat.lt_succ_self _) hp)

variable {i}

theorem contains_of_lt {y : ℚ} (hl : i.low * 2 ^ i.unit < y) (hh : y < i.high * 2 ^ i.unit) :
    i.Contains y :=
  ⟨hl.le, hh.le, fun _ => ⟨hl, hh⟩⟩

theorem middle_between (ha : i.Around) :
    i.low * 2 ^ i.unit < i.middle ∧ i.middle < i.high * 2 ^ i.unit :=
  ⟨(mul_lt_mul_iff_left₀ (unit_pos _)).mpr (by exact_mod_cast ha.low),
    (mul_lt_mul_iff_left₀ (unit_pos _)).mpr (by exact_mod_cast ha.high)⟩

theorem contains_between (ha : i.Around) {x y : ℚ} (hx : i.Contains x)
    (h : x ≤ y ∧ y ≤ i.middle ∨ i.middle ≤ y ∧ y ≤ x) : i.Contains y := by
  obtain ⟨hl, hh⟩ := middle_between ha
  rcases h with ⟨h1, h2⟩ | ⟨h1, h2⟩
  · exact ⟨hx.low.trans h1, h2.trans hh.le,
      fun hc => ⟨(hx.inside hc).1.trans_le h1, h2.trans_lt hh⟩⟩
  · exact ⟨hl.le.trans h1, h2.trans hx.high,
      fun hc => ⟨hl.trans_le h1, h2.trans_lt (hx.inside hc).2⟩⟩

theorem contained_sides (ha : i.Around) (place : ℤ) {d : ℕ} (h : i.Contains (d * 10 ^ place)) :
    i.Contains (i.below place * 10 ^ place) ∧
        i.middle - i.below place * 10 ^ place ≤ |d * 10 ^ place - i.middle| ∨
      i.Contains ((i.below place + 1 : ℕ) * 10 ^ place) ∧
        (i.below place + 1 : ℕ) * 10 ^ place - i.middle ≤ |d * 10 ^ place - i.middle| := by
  have hp : (0 : ℚ) ≤ 10 ^ place := by positivity
  have hb := i.below_le place
  have hab := i.lt_above place
  rcases Nat.lt_or_ge (i.below place) d with hd | hd
  · have hle : ((i.below place + 1 : ℕ) * 10 ^ place : ℚ) ≤ d * 10 ^ place :=
      mul_le_mul_of_nonneg_right (by exact_mod_cast hd) hp
    refine .inr ⟨contains_between ha h (.inr ⟨hab.le, hle⟩), ?_⟩
    exact (sub_le_sub_right hle _).trans (le_abs_self _)
  · have hle : (d * 10 ^ place : ℚ) ≤ i.below place * 10 ^ place :=
      mul_le_mul_of_nonneg_right (by exact_mod_cast hd) hp
    refine .inl ⟨contains_between ha h (.inl ⟨hle, hb⟩), ?_⟩
    rw [abs_sub_comm]
    exact (sub_le_sub_left hle _).trans (le_abs_self _)

/-- The number of the grid is in the interval, and no other one is nearer to the middle. -/
structure Nearest (i : Interval) (place : ℤ) (d : ℕ) : Prop where
  contained : i.Contains (d * 10 ^ place)
  least (d' : ℕ) (h : i.Contains (d' * 10 ^ place)) :
    |d * 10 ^ place - i.middle| ≤ |d' * 10 ^ place - i.middle|

theorem distances_le (place : ℤ) :
    let center := i.center * unitFactor i.unit place
    let grid := gridFactor i.unit place
    let toBelow := center - i.below place * grid
    let toAbove := (i.below place + 1) * grid - center
    (toBelow ≤ toAbove ↔ i.middle - i.below place * 10 ^ place ≤
      (i.below place + 1 : ℕ) * 10 ^ place - i.middle) ∧
    (toAbove ≤ toBelow ↔ (i.below place + 1 : ℕ) * 10 ^ place - i.middle ≤
      i.middle - i.below place * 10 ^ place) := by
  intro center grid toBelow toAbove
  obtain ⟨c, hc, hg, hu⟩ := factors i.unit place
  have hb : i.below place * grid ≤ center := (i.grid_le place _ _).1.mpr (i.below_le place)
  have ha : center ≤ (i.below place + 1) * grid :=
    (i.grid_le place _ _).2.mpr (i.lt_above place).le
  have hB : (toBelow : ℚ) = (i.middle - i.below place * 10 ^ place) * c := by
    rw [Nat.cast_sub hb, Nat.cast_mul, Nat.cast_mul, hg, hu, middle]
    ring
  have hA : (toAbove : ℚ) = ((i.below place + 1 : ℕ) * 10 ^ place - i.middle) * c := by
    rw [Nat.cast_sub ha, Nat.cast_mul, Nat.cast_mul, hg, hu, middle]
    ring
  rw [← @Nat.cast_le ℚ, ← @Nat.cast_le ℚ, hA, hB, mul_le_mul_iff_left₀ hc,
    mul_le_mul_iff_left₀ hc]
  exact ⟨Iff.rfl, Iff.rfl⟩

theorem best_none (ha : i.Around) {place : ℤ} (h : i.best? place = none) (d : ℕ) :
    ¬i.Contains (d * 10 ^ place) := by
  intro hd
  have hs := contained_sides ha place hd
  rw [← covers_iff, ← covers_iff] at hs
  unfold best? at h
  simp only at h
  split at h
  next hb ha =>
    rcases hs with ⟨hs, -⟩ | ⟨hs, -⟩
    · exact Bool.false_ne_true (hb.symm.trans hs)
    · exact Bool.false_ne_true (ha.symm.trans hs)
  next => cases h
  next => cases h
  next =>
    split at h
    · cases h
    · split at h <;> cases h

theorem below_nearest (ha : i.Around) {place : ℤ}
    (hb : i.Contains (i.below place * 10 ^ place))
    (hs : i.Contains ((i.below place + 1 : ℕ) * 10 ^ place) →
      i.middle - i.below place * 10 ^ place ≤ (i.below place + 1 : ℕ) * 10 ^ place - i.middle) :
    i.Nearest place (i.below place) := by
  refine ⟨hb, fun d' hd => ?_⟩
  rw [abs_sub_comm, abs_of_nonneg (sub_nonneg.mpr (i.below_le place))]
  rcases contained_sides ha place hd with ⟨-, h⟩ | ⟨hc, h⟩
  · exact h
  · exact (hs hc).trans h

theorem above_nearest (ha : i.Around) {place : ℤ}
    (hb : i.Contains ((i.below place + 1 : ℕ) * 10 ^ place))
    (hs : i.Contains (i.below place * 10 ^ place) →
      (i.below place + 1 : ℕ) * 10 ^ place - i.middle ≤ i.middle - i.below place * 10 ^ place) :
    i.Nearest place (i.below place + 1) := by
  refine ⟨hb, fun d' hd => ?_⟩
  rw [abs_of_nonneg (sub_nonneg.mpr (i.lt_above place).le)]
  rcases contained_sides ha place hd with ⟨hc, h⟩ | ⟨-, h⟩
  · exact (hs hc).trans h
  · exact h

theorem best_nearest (ha : i.Around) {place : ℤ} {d : ℕ} (h : i.best? place = some d) :
    i.Nearest place d := by
  obtain ⟨dB, dA⟩ := i.distances_le place
  have cB := i.covers_iff place (i.below place)
  have cA := i.covers_iff place (i.below place + 1)
  unfold best? at h
  simp only at h
  split at h
  next => cases h
  next hb hn =>
    cases h
    exact below_nearest ha (cB.mp hb) fun hc => absurd (cA.mpr hc) (by simpa [below] using hn)
  next hn hb =>
    cases h
    exact above_nearest ha (cA.mp hb) fun hc => absurd (cB.mpr hc) (by simpa [below] using hn)
  next hb hb' =>
    have below_of := fun hd => below_nearest ha (cB.mp hb) fun _ => dB.mp hd
    have above_of := fun hd => above_nearest ha (cA.mp hb') fun _ => dA.mp hd
    split at h
    next hd =>
      cases h
      exact below_of hd.le
    next hd =>
      split at h
      next hd' =>
        cases h
        exact above_of hd'.le
      next hd' =>
        -- As far from the one as from the other.
        cases h
        split
        · exact below_of (Nat.not_lt.mp hd')
        · exact above_of (Nat.not_lt.mp hd)

theorem contains_pos (hl : 0 < i.low) {y : ℚ} (h : i.Contains y) : 0 < y :=
  (mul_pos (by exact_mod_cast hl) (unit_pos _)).trans_le h.low

/-- The place and the number at which a search from `place` stops. No coarser grid on the way has a
number in the interval. -/
structure Coarsest (i : Interval) (place p : ℤ) (d : ℕ) : Prop where
  reached : p ≤ place
  nearest : i.Nearest p d
  coarser (r : ℤ) (hp : p < r) (hr : r ≤ place) (d' : ℕ) : ¬i.Contains (d' * 10 ^ r)

theorem search_coarsest (ha : i.Around) {q : ℤ} {d : ℕ} (hd : i.Contains (d * 10 ^ q)) (tries : ℕ)
    (place : ℤ) (hq : q ≤ place) (hs : place - tries < q) :
    ∃ c p, i.search place tries = (c, p) ∧ q ≤ p ∧ i.Coarsest place p c := by
  induction tries generalizing place with
  | zero => omega
  | succ tries ih =>
    unfold search
    cases hb : i.best? place with
    | some c =>
      exact ⟨c, place, rfl, hq, le_refl _, best_nearest ha hb, fun r hr hr' => by omega⟩
    | none =>
      have none_here := best_none ha hb
      have hne : q ≠ place := fun he => none_here d (he ▸ hd)
      obtain ⟨c, p, hs, hp, found⟩ := ih (place - 1) (by omega) (by omega)
      have reached := found.reached
      refine ⟨c, p, hs, hp, by omega, found.nearest, fun r hr hr' => ?_⟩
      rcases eq_or_lt_of_le hr' with rfl | hlt
      · exact none_here
      · exact found.coarser r hr (by omega)

theorem nearest_whole {p c : ℕ} (hn : i.Nearest p c) : i.Contains (c * 10 ^ p : ℕ) ∧
    ∀ j : ℕ, i.Contains j → 10 ^ p ∣ j →
      |((c * 10 ^ p : ℕ) : ℚ) - i.middle| ≤ |(j : ℚ) - i.middle| := by
  refine ⟨by exact_mod_cast hn.contained, fun j hj hd => ?_⟩
  obtain ⟨d, rfl⟩ := exists_eq_mul_left_of_dvd hd
  exact_mod_cast hn.least d (by exact_mod_cast hj)

theorem coarsest_zeros {f p c : ℕ} (hc : i.Coarsest f p c) {j r : ℕ} (hj : i.Contains j)
    (hr : 10 ^ r ∣ j) (hf : r ≤ f) : r ≤ p := by
  by_contra hlt
  obtain ⟨d, rfl⟩ := exists_eq_mul_left_of_dvd hr
  exact hc.coarser r (by omega) (by omega) d (by exact_mod_cast hj)

/-- Of the whole numbers in the interval it has the most zeros at its end, and of those with as many
it is the nearest to the middle. -/
structure Roundest (i : Interval) (k : ℕ) : Prop where
  contained : i.Contains k
  zeros {j : ℕ} (h : i.Contains j) {q : ℕ} (hq : 10 ^ q ∣ j) : 10 ^ q ∣ k
  nearest {j : ℕ} (h : i.Contains j) (hz : ∀ q, 10 ^ q ∣ k → 10 ^ q ∣ j) (hne : j ≠ k) :
    |k - i.middle| < |j - i.middle|

end Interval

end CohortQuery.Decimal
