import CohortQuery.Decimal.Numeral
import CohortQuery.Proofs.Decimal.Shortest

/-!
# Plain numerals that are read back

The shortest decimal of a number lies in the interval of the numbers that are rounded to it, so it
is read as the number that was written. This goes for all numbers of the format, down to those with
few bits.
-/

set_option autoImplicit false

namespace CohortQuery

namespace Decimal

open Text (isDigit ofDigits of_digits_append zeros_value numeral_digits numeral_value)

theorem ten_to_pos (n : ℕ) : 0 < tenTo n :=
  Nat.pow_pos (by norm_num)

section

variable {m : ℕ} {e : ℤ} (hm : 0 < m) (h : Held m e)

include hm h

theorem place_bounds : (10 ^ (Interval.ofFinite m e).firstPlace : ℚ) ≤ m * 2 ^ e ∧
    (m * 2 ^ e : ℚ) < 10 ^ ((Interval.ofFinite m e).firstPlace + 1) := by
  let num := 4 * m * 2 ^ (e - 2).toNat * tenTo 400
  let den := 2 ^ (-(e - 2)).toNat
  have hd : 0 < den := Nat.two_pow_pos _
  have hq : (0 : ℚ) < den := by exact_mod_cast hd
  have ten : (10 : ℚ) ≠ 0 := by norm_num
  have value : (num : ℚ) = m * 2 ^ e * tenTo 400 * den := by
    simp only [num, den]
    push_cast
    rw [power_parts (by norm_num) (e - 2), quarters e]
    ring
  have positive : 0 < num / den := by
    have hp : (1 : ℚ) ≤ m := by exact_mod_cast hm
    have small : (2 : ℚ) ^ (-1074 : ℤ) ≤ m * 2 ^ e :=
      (zpow_le_zpow_right₀ (by norm_num) h.above).trans (le_mul_of_one_le_left (by positivity) hp)
    have powers : 2 ^ 1074 ≤ tenTo 400 := by decide +kernel
    have one : (1 : ℚ) ≤ 2 ^ (-1074 : ℤ) * tenTo 400 := by
      rw [zpow_neg, le_inv_mul_iff₀ (Interval.unit_pos _), mul_one]
      exact_mod_cast powers
    have le : (den : ℚ) ≤ num := by
      rw [value]
      refine le_mul_of_one_le_left hq.le (one.trans ?_)
      exact mul_le_mul_of_nonneg_right small (by positivity)
    exact Nat.div_pos (by exact_mod_cast le) hd
  obtain ⟨l, hl⟩ : ∃ l, (Nat.toDigits 10 (num / den)).length = l + 1 :=
    Nat.exists_eq_succ_of_ne_zero (by simp)
  have first : (Interval.ofFinite m e).firstPlace = l - 400 := by
    have hf : (Interval.ofFinite m e).firstPlace =
        (Nat.toDigits 10 (num / den)).length - 401 := rfl
    rw [hf, hl]
    push_cast
    ring
  have low : (10 ^ l * den : ℚ) ≤ num := by
    have digits : 10 ^ l ≤ num / den := by
      by_contra hlt
      cases l with
      | zero => omega
      | succ l =>
        have short := (Nat.length_toDigits_le_iff (b := 10) (by norm_num) (Nat.succ_pos l)).mpr
          (not_le.mp hlt)
        omega
    exact_mod_cast (Nat.le_div_iff_mul_le hd).mp digits
  have high : (num : ℚ) < 10 ^ (l + 1) * den := by
    have digits := (Nat.length_toDigits_le_iff (by norm_num) (Nat.succ_pos l)).mp hl.le
    exact_mod_cast (Nat.div_lt_iff_lt_mul hd).mp digits
  rw [value] at low high
  have shift (k : ℕ) : (10 : ℚ) ^ (k - 400 : ℤ) * tenTo 400 = 10 ^ k := by
    rw [ten_to, Nat.cast_pow, ← zpow_natCast, ← zpow_natCast, Nat.cast_ofNat, ← zpow_add₀ ten]
    refine congrArg _ ?_
    push_cast
    ring
  have scale : (0 : ℚ) < tenTo 400 := Nat.cast_pos.mpr (ten_to_pos 400)
  refine ⟨le_of_mul_le_mul_right ?_ scale, lt_of_mul_lt_mul_right ?_ scale.le⟩
  · rw [first, shift]
    exact le_of_mul_le_mul_right low hq
  · have next : (l : ℤ) - 400 + 1 = (l + 1 : ℕ) - 400 := by
      push_cast
      ring
    rw [first, next, shift]
    exact lt_of_mul_lt_mul_right high hq.le

/-- The shortest decimal is rounded to the number that it was made of. -/
theorem shortest_contained : ∃ (d : ℕ) (p : ℤ), shortest m e = (d, p) ∧ 0 < d ∧
    (Interval.ofFinite m e).Contains (d * 10 ^ p) := by
  have first := (place_bounds hm h).1
  obtain ⟨d, hd⟩ := fine_contained (e := e) hm h.most ((Interval.ofFinite m e).firstPlace - 16)
    (by rwa [sub_add_cancel])
  obtain ⟨c, p, hs, -, hc⟩ := Interval.search_coarsest (around hm) hd 17
    (Interval.ofFinite m e).firstPlace (by omega) (by omega)
  have contained := hc.nearest.contained
  have low : 0 < (Interval.ofFinite m e).low := by
    refine Nat.sub_pos_of_lt ?_
    split <;> omega
  have positive : 0 < c := by
    have hp := Interval.contains_pos low contained
    exact Nat.pos_of_ne_zero fun hz => by simp [hz] at hp
  obtain ⟨d, k, stripped, hp, hv⟩ := strip_zeros positive p 20
  refine ⟨d, p + k, ?_, hp, ?_⟩
  · rw [shortest, hs]
    exact stripped
  · have value : (d * 10 ^ (p + k) : ℚ) = c * 10 ^ p := by
      rw [← hv, zpow_add₀ (by norm_num), zpow_natCast]
      push_cast
      ring
    rwa [value]

theorem contained_bounds (he : e ≤ 971) {y : ℚ} (hc : (Interval.ofFinite m e).Contains y) :
    (10 ^ (-401 : ℤ) : ℚ) < y ∧ y < 10 ^ (400 : ℤ) := by
  have unit : (2 : ℚ) ^ (-1076 : ℤ) ≤ 2 ^ (e - 2) :=
    zpow_le_zpow_right₀ (by norm_num) (by have := h.above; omega)
  have unit' : (2 : ℚ) ^ (e - 2) ≤ 2 ^ (969 : ℤ) := zpow_le_zpow_right₀ (by norm_num) (by omega)
  have low : (1 : ℚ) ≤ (Interval.ofFinite m e).low := by
    have hl : 0 < (Interval.ofFinite m e).low := by
      refine Nat.sub_pos_of_lt ?_
      split <;> omega
    exact_mod_cast hl
  have high : ((Interval.ofFinite m e).high : ℚ) ≤ 2 ^ 56 := by
    have hh : 4 * m + 2 ≤ 2 ^ 56 := by
      have := h.most
      omega
    exact_mod_cast hh
  constructor
  · refine lt_of_lt_of_le ?_ hc.low
    refine lt_of_lt_of_le ?_ (mul_le_mul low unit (Interval.unit_pos _).le (by linarith))
    have powers : 2 ^ 1076 < 10 ^ 401 := by decide +kernel
    rw [one_mul, zpow_neg, zpow_neg]
    exact inv_strictAnti₀ (by positivity) (by exact_mod_cast powers)
  · refine lt_of_le_of_lt hc.high ?_
    have wide : (0 : ℚ) ≤ 2 ^ 56 := by positivity
    refine lt_of_le_of_lt (mul_le_mul high unit' (Interval.unit_pos _).le wide) ?_
    have powers : 2 ^ 56 * 2 ^ 969 < 10 ^ 400 := by decide +kernel
    exact_mod_cast powers

/-- A decimal in the interval of a number is read as this number. -/
theorem decimal_read (he : e ≤ 971) (negative : Bool) {d : ℕ} (hd : 0 < d) {p : ℤ}
    (hc : (Interval.ofFinite m e).Contains (d * 10 ^ p)) :
    Binary64.ofDecimal negative d p = .finite negative m e := by
  obtain ⟨low, high⟩ := contained_bounds hm h he hc
  have ten : (10 : ℚ) ≠ 0 := by norm_num
  obtain ⟨l, hl⟩ : ∃ l, (Nat.toDigits 10 d).length = l + 1 :=
    Nat.exists_eq_succ_of_ne_zero (by simp)
  have least : (10 ^ l : ℚ) ≤ d := by
    have digits : 10 ^ l ≤ d := by
      by_contra hlt
      cases l with
      | zero => omega
      | succ l =>
        have short := (Nat.length_toDigits_le_iff (b := 10) (by norm_num) (Nat.succ_pos l)).mpr
          (not_le.mp hlt)
        omega
    exact_mod_cast digits
  have most : (d : ℚ) < 10 ^ (l + 1) := by
    exact_mod_cast (Nat.length_toDigits_le_iff (by norm_num) (Nat.succ_pos l)).mp hl.le
  have power : (0 : ℚ) < 10 ^ p := by positivity
  have small : p + (l + 1) ≤ 400 := by
    have hp : (10 : ℚ) ^ (l + p) < 10 ^ (400 : ℤ) := by
      rw [zpow_add₀ ten, zpow_natCast]
      exact (mul_le_mul_of_nonneg_right least power.le).trans_lt high
    have := (zpow_lt_zpow_iff_right₀ (by norm_num)).mp hp
    omega
  have large : -400 ≤ p + (l + 1) := by
    have hp : (10 : ℚ) ^ (-401 : ℤ) < 10 ^ ((l + 1 : ℕ) + p) := by
      rw [zpow_add₀ ten, zpow_natCast]
      exact low.trans (mul_lt_mul_of_pos_right most power)
    have := (zpow_lt_zpow_iff_right₀ (by norm_num)).mp hp
    push_cast at this
    omega
  have quotient : ((d * tenTo p.toNat : ℕ) : ℚ) / (tenTo (-p).toNat : ℕ) = d * 10 ^ p := by
    rw [ten_to, ten_to]
    push_cast
    rw [div_eq_iff (by positivity), power_parts ten p]
    ring
  obtain ⟨n, f, held, contains, -, rounds⟩ := quotient_rounds negative
    (Nat.mul_pos hd (ten_to_pos p.toNat)) (ten_to_pos (-p).toNat)
  rw [quotient] at contains
  obtain ⟨rfl, rfl⟩ := held_unique held h contains hc
  rw [if_neg (by omega)] at rounds
  rw [Binary64.ofDecimal, if_neg hd.ne', hl]
  dsimp only
  rw [if_neg (by push_cast; omega), if_neg (by push_cast; omega), rounds]

end

section

variable (negative : Bool) {whole rest : List Char} (hn : whole ≠ [])
  (hw : ∀ c ∈ whole, isDigit c = true) (hr : ∀ c ∈ rest.head?, isDigit c = false ∧ c ≠ '.')

include hn hw hr

theorem read_whole : readUnsigned negative (whole ++ rest) =
    (readExponent rest).map fun e => Binary64.ofDecimal negative (ofDigits whole) e := by
  have front : (whole ++ rest).takeWhile isDigit = whole := by
    rw [List.takeWhile_append_of_pos hw]
    cases rest with
    | nil => simp
    | cons c cs => simp [(hr c rfl).1]
  have behind : (whole ++ rest).dropWhile isDigit = rest := by
    rw [List.dropWhile_append_of_pos hw]
    cases rest with
    | nil => rfl
    | cons c cs => simp [(hr c rfl).1]
  unfold readUnsigned
  rw [front, behind]
  dsimp only
  split
  next r => exact absurd rfl (hr '.' rfl).2
  next => simp [hn]

theorem read_fraction {fraction : List Char} (hf : ∀ c ∈ fraction, isDigit c = true) :
    readUnsigned negative (whole ++ '.' :: (fraction ++ rest)) =
      (readExponent rest).map fun e =>
        Binary64.ofDecimal negative (ofDigits (whole ++ fraction)) (e - fraction.length) := by
  have front : (whole ++ '.' :: (fraction ++ rest)).takeWhile isDigit = whole := by
    rw [List.takeWhile_append_of_pos hw]
    simp [isDigit]
  have behind : (whole ++ '.' :: (fraction ++ rest)).dropWhile isDigit =
      '.' :: (fraction ++ rest) := by
    rw [List.dropWhile_append_of_pos hw]
    simp [isDigit]
  have front' : (fraction ++ rest).takeWhile isDigit = fraction := by
    rw [List.takeWhile_append_of_pos hf]
    cases rest with
    | nil => simp
    | cons c cs => simp [(hr c rfl).1]
  have behind' : (fraction ++ rest).dropWhile isDigit = rest := by
    rw [List.dropWhile_append_of_pos hf]
    cases rest with
    | nil => rfl
    | cons c cs => simp [(hr c rfl).1]
  simp [readUnsigned, front, behind, front', behind', hn]

end

theorem zeros_digits (n : ℕ) : ∀ c ∈ zeros n, isDigit c = true := by
  intro c hc
  rw [List.eq_of_mem_replicate hc]
  decide

theorem positional_read (negative : Bool) {d : ℕ} (hd : 0 < d) (place : ℤ) {point : List Char}
    (hp : point = [] ∨ point = ['.', '0']) : ∃ (k : ℕ) (p : ℤ),
    readUnsigned negative
        (positional (Nat.toDigits 10 d) ((Nat.toDigits 10 d).length + place) point) =
      some (Binary64.ofDecimal negative k p) ∧ 0 < k ∧ (k * 10 ^ p : ℚ) = d * 10 ^ place := by
  have hn : Nat.toDigits 10 d ≠ [] := Nat.toDigits_ne_nil
  have digits := numeral_digits d
  have value := numeral_value d
  generalize Nat.toDigits 10 d = ds at hn digits value
  have last : ∀ c ∈ ([] : List Char).head?, isDigit c = false ∧ c ≠ '.' := nofun
  have ended : readExponent [] = some 0 := rfl
  unfold positional
  split
  next h =>
    -- zeros behind the point
    have fraction : ∀ c ∈ zeros (-(ds.length + place)).toNat ++ ds, isDigit c = true :=
      List.forall_mem_append.mpr ⟨zeros_digits _, digits⟩
    refine ⟨d, place, ?_, hd, rfl⟩
    have zero : ∀ c ∈ ['0'], isDigit c = true := zeros_digits 1
    have read := read_fraction negative (List.cons_ne_nil _ _) zero last fraction
    have number : ofDigits (['0'] ++ (zeros (-(ds.length + place)).toNat ++ ds)) = d := by
      rw [of_digits_append, of_digits_append, zeros, zeros_value, value]
      simp [ofDigits, Text.digitValue]
    have length : (0 - ((zeros (-(ds.length + place)).toNat ++ ds).length : ℤ)) = place := by
      rw [List.length_append, zeros, List.length_replicate]
      push_cast
      omega
    rw [List.append_nil, ended, Option.map_some, number, length] at read
    exact read
  next h =>
    split
    next hl =>
      -- zeros before the point
      have whole : ∀ c ∈ ds ++ zeros place.toNat, isDigit c = true :=
        List.forall_mem_append.mpr ⟨digits, zeros_digits _⟩
      have nonempty : ds ++ zeros place.toNat ≠ [] := by simp [hn]
      have count : (ds.length + place).toNat - ds.length = place.toNat := by omega
      have number : ofDigits (ds ++ zeros place.toNat) = d * 10 ^ place.toNat := by
        rw [of_digits_append, zeros, zeros_value, value, List.length_replicate, Nat.add_zero]
      have power : ((10 ^ place.toNat : ℕ) : ℚ) = 10 ^ place := by
        rw [Nat.cast_pow, ← zpow_natCast, Int.toNat_of_nonneg (by omega), Nat.cast_ofNat]
      rw [count]
      rcases hp with rfl | rfl
      · refine ⟨d * 10 ^ place.toNat, 0, ?_, by positivity, ?_⟩
        · have read := read_whole negative nonempty whole last
          rw [number, ended] at read
          exact read
        · rw [Nat.cast_mul, power, zpow_zero, mul_one]
      · refine ⟨d * 10 ^ place.toNat * 10, -1, ?_, by positivity, ?_⟩
        · have zero : ∀ c ∈ ['0'], isDigit c = true := zeros_digits 1
          have read := read_fraction negative nonempty whole last zero
          rw [of_digits_append, number, ended] at read
          exact read
        · rw [Nat.cast_mul, Nat.cast_mul, power, mul_assoc]
          norm_num
    next hl =>
      obtain ⟨n, hp⟩ := Int.eq_ofNat_of_zero_le (by omega : 0 ≤ ds.length + place)
      rw [hp, Int.toNat_natCast]
      have nonempty : ds.take n ≠ [] := by
        have hds := List.length_pos_iff.mpr hn
        exact List.ne_nil_of_length_pos (by rw [List.length_take]; omega)
      have whole : ∀ c ∈ ds.take n, isDigit c = true := fun c hc =>
        digits c (List.mem_of_mem_take hc)
      have fraction : ∀ c ∈ ds.drop n, isDigit c = true := fun c hc =>
        digits c (List.mem_of_mem_drop hc)
      have read := read_fraction negative nonempty whole last fraction
      have length : (0 - ((ds.drop n).length : ℤ)) = place := by
        rw [List.length_drop]
        omega
      rw [List.append_nil, List.take_append_drop, value, ended, Option.map_some, length] at read
      exact ⟨d, place, read, hd, rfl⟩

theorem positional_chars {ds : List Char} (hd : ∀ c ∈ ds, isDigit c = true) (point : ℤ) :
    '.' ∈ positional ds point ['.', '0'] ∧
      ∀ c ∈ positional ds point ['.', '0'], isDigit c = true ∨ c = '.' := by
  have zeros {n : ℕ} : ∀ c ∈ zeros n, isDigit c = true ∨ c = '.' := fun c hc =>
    .inl (zeros_digits n c hc)
  have mark : ∀ c ∈ ['.', '0'], isDigit c = true ∨ c = '.' :=
    List.forall_mem_cons.mpr ⟨.inr rfl, fun c hc => .inl (zeros_digits 1 c hc)⟩
  have part {us : List Char} (hu : us ⊆ ds) : ∀ c ∈ us, isDigit c = true ∨ c = '.' := fun c hc =>
    .inl (hd c (hu hc))
  unfold positional
  split
  next =>
    refine ⟨by simp, ?_⟩
    exact List.forall_mem_append.mpr ⟨List.forall_mem_cons.mpr ⟨.inl rfl,
      List.forall_mem_cons.mpr ⟨.inr rfl, zeros⟩⟩, part (List.Subset.refl ds)⟩
  next =>
    split
    next =>
      refine ⟨by simp, ?_⟩
      exact List.forall_mem_append.mpr
        ⟨List.forall_mem_append.mpr ⟨part (List.Subset.refl ds), zeros⟩, mark⟩
    next =>
      refine ⟨by simp, ?_⟩
      exact List.forall_mem_append.mpr ⟨part (List.take_subset _ ds),
        List.forall_mem_cons.mpr ⟨.inr rfl, part (List.drop_subset _ ds)⟩⟩

theorem exponent_read (power : ℤ) : readExponent
    ('e' :: (if power < 0 then [] else ['+']) ++ (Text.signedNumeral power).toList) =
      some power := by
  have digits : (Nat.toDigits 10 power.natAbs).all isDigit = true := by
    simpa using numeral_digits power.natAbs
  have nonempty : (Nat.toDigits 10 power.natAbs).isEmpty = false := by
    simp [Nat.toDigits_ne_nil]
  unfold Text.signedNumeral Text.numeral
  split
  next h =>
    have sign : takeSign ("-" ++ String.ofList (Nat.toDigits 10 power.natAbs)).toList =
        (true, Nat.toDigits 10 power.natAbs) := by
      rw [String.toList_append, String.toList_ofList, String.toList_ofList]
      rfl
    have value : -((power.natAbs : ℕ) : ℤ) = power := by omega
    simp only [List.cons_append, List.nil_append, readExponent, sign, digits,
      nonempty, numeral_value, value]
    rfl
  next h =>
    have value : ((power.natAbs : ℕ) : ℤ) = power := by omega
    simp only [List.cons_append, List.nil_append, String.toList_ofList, readExponent, takeSign,
      digits, nonempty, numeral_value, value]
    rfl

theorem scientific_read (negative : Bool) (d : ℕ) (place : ℤ) :
    readUnsigned negative
        (scientific (Nat.toDigits 10 d) ((Nat.toDigits 10 d).length + place - 1)) =
      some (Binary64.ofDecimal negative d place) := by
  have digits := numeral_digits d
  have value := numeral_value d
  have hn : Nat.toDigits 10 d ≠ [] := Nat.toDigits_ne_nil
  generalize Nat.toDigits 10 d = ds at hn digits value
  have read := exponent_read (ds.length + place - 1)
  generalize hr : 'e' :: (if (ds.length + place - 1 : ℤ) < 0 then [] else ['+']) ++
    (Text.signedNumeral (ds.length + place - 1)).toList = rest at read
  have behind : ∀ c ∈ rest.head?, isDigit c = false ∧ c ≠ '.' := by
    rw [← hr]
    rintro c ⟨⟩
    decide
  cases ds with
  | nil => exact absurd rfl hn
  | cons c ds =>
    cases ds with
    | nil =>
      have front := read_whole negative hn digits behind
      have one : (([c].length : ℕ) + place - 1 : ℤ) = place := by
        rw [List.length_singleton]
        omega
      have text : scientific [c] ([c].length + place - 1) = [c] ++ rest := by
        rw [← hr]
        rfl
      rw [read, Option.map_some, value, one] at front
      rw [text]
      exact front
    | cons e ds =>
      obtain ⟨first, others⟩ := List.forall_mem_cons.mp digits
      have front := read_fraction negative (List.cons_ne_nil c []) (by simpa using first) behind
        others
      have power : (((c :: e :: ds).length : ℕ) + place - 1 - ((e :: ds).length : ℕ) : ℤ) =
          place := by
        rw [List.length_cons]
        push_cast
        omega
      have text : scientific (c :: e :: ds) ((c :: e :: ds).length + place - 1) =
          [c] ++ '.' :: ((e :: ds) ++ rest) := by
        rw [← hr]
        simp [scientific]
      have joined : ofDigits ([c] ++ e :: ds) = d := value
      rw [read, Option.map_some, joined, power] at front
      rw [text]
      exact front

theorem scientific_chars {ds : List Char} (hd : ∀ c ∈ ds, isDigit c = true) (power : ℤ) :
    'e' ∈ scientific ds power ∧ ∀ c ∈ scientific ds power,
      isDigit c = true ∨ c = '.' ∨ c = 'e' ∨ c = '+' ∨ c = '-' := by
  have digit {c : Char} (h : isDigit c = true) :
      isDigit c = true ∨ c = '.' ∨ c = 'e' ∨ c = '+' ∨ c = '-' := .inl h
  have exponent : ∀ c ∈ 'e' :: (if power < 0 then [] else ['+']) ++
      (Text.signedNumeral power).toList,
      isDigit c = true ∨ c = '.' ∨ c = 'e' ∨ c = '+' ∨ c = '-' := by
    refine List.forall_mem_append.mpr ⟨List.forall_mem_cons.mpr ⟨by simp, ?_⟩, fun c hc => ?_⟩
    · split <;> simp
    · exact (Text.signed_chars power c hc).imp_right fun h => .inr (.inr (.inr h))
  unfold scientific
  dsimp only
  refine ⟨by simp, ?_⟩
  rw [List.append_assoc]
  refine List.forall_mem_append.mpr ⟨?_, exponent⟩
  split
  next d e rest =>
    obtain ⟨first, others⟩ := List.forall_mem_cons.mp hd
    exact List.forall_mem_cons.mpr ⟨digit first, List.forall_mem_cons.mpr ⟨by simp,
      fun c hc => digit (others c hc)⟩⟩
  next => exact fun c hc => digit (hd c hc)

theorem unsigned_front {negative : Bool} {body : List Char} {x : Binary64}
    (h : readUnsigned negative body = some x) :
    ∃ c cs, body = c :: cs ∧ (isDigit c = true ∨ c = '.') := by
  cases body with
  | nil => simp [readUnsigned] at h
  | cons c cs =>
    refine ⟨c, cs, rfl, ?_⟩
    by_contra hn
    obtain ⟨hd, hp⟩ := not_or.mp hn
    simp [readUnsigned, hd, hp] at h

theorem front_lower {c : Char} (h : isDigit c = true ∨ c = '.') : c.toLower = c := by
  rcases h with h | rfl
  · have bounds := Text.digit_bounds h
    refine dif_neg ?_
    rintro ⟨upper, -⟩
    have : 65 ≤ c.toNat := upper
    omega
  · decide

theorem signed_read (negative : Bool) {body : List Char} {x : Binary64}
    (h : readUnsigned negative body = some x) :
    readNumber (signed negative body).toList = some x := by
  obtain ⟨c, cs, rfl, hc⟩ := unsigned_front h
  have lowered := front_lower hc
  have sign : takeSign (signed negative (c :: cs)).toList = (negative, c :: cs) := by
    rw [signed, String.toList_ofList]
    cases negative with
    | true => rfl
    | false =>
      have minus : c ≠ '-' := by rintro rfl; revert hc; decide
      have plus : c ≠ '+' := by rintro rfl; revert hc; decide
      simp [takeSign, minus, plus]
  have word {d : Char} {ds : List Char} (hd : ¬(isDigit d = true ∨ d = '.')) :
      lower (c :: cs) ≠ d :: ds := by
    intro he
    have front : c.toLower = d := (List.cons.inj he).1
    exact hd (front ▸ lowered.symm ▸ hc)
  have unlike : lower (c :: cs) ≠ "nan".toList ∧ lower (c :: cs) ≠ "inf".toList ∧
      lower (c :: cs) ≠ "infinity".toList :=
    ⟨word (by decide), word (by decide), word (by decide)⟩
  rw [readNumber, sign]
  dsimp only
  rw [if_neg unlike.1, if_neg (not_or.mpr unlike.2), h]

end Decimal

namespace Binary64

open Decimal
open Text (isDigit numeral_digits)

def Proper : Binary64 → Prop
  | finite _ m e => Held m e ∧ e ≤ 971
  | nan | infinite _ => True

/-- A finite number of the format. -/
structure Exact (x : Binary64) : Prop where
  proper : x.Proper
  finite : x.isFinite = true

theorem zero_held {e : ℤ} (h : Held 0 e) : e = -1074 := by
  by_contra hn
  exact absurd (h.least (lt_of_le_of_ne h.above (Ne.symm hn))) (by norm_num)

theorem shortest_read {m : ℕ} {e : ℤ} (hm : 0 < m) (h : Held m e) (he : e ≤ 971) :
    ∃ (d : ℕ) (place : ℤ), shortest m e = (d, place) ∧ 0 < d ∧
      ∀ (negative : Bool) (k : ℕ) (p : ℤ), 0 < k → (k * 10 ^ p : ℚ) = d * 10 ^ place →
        ofDecimal negative k p = .finite negative m e := by
  obtain ⟨d, place, hs, hd, hc⟩ := shortest_contained hm h
  refine ⟨d, place, hs, hd, fun negative k p hk value => ?_⟩
  rw [← value] at hc
  exact decimal_read hm h he negative hk hc

/-- The plain numeral of a number is read as this number. -/
theorem plain_read {x : Binary64} (h : x.Proper) : readNumber x.plain.toList = some x := by
  match x with
  | nan => decide
  | infinite negative => cases negative <;> decide
  | finite negative m e =>
    obtain ⟨held, he⟩ := h
    by_cases hm : m = 0
    · subst hm
      obtain rfl := zero_held held
      exact signed_read negative rfl
    · obtain ⟨d, place, hs, hd, read⟩ := shortest_read (Nat.pos_of_ne_zero hm) held he
      obtain ⟨k, p, text, hk, value⟩ := positional_read negative hd place (.inl rfl)
      rw [read negative k p hk value] at text
      rw [plain, if_neg hm, hs]
      exact signed_read negative text

/-- The marked numeral of a finite number is read as this number. It is no integer. -/
theorem marked_read {x : Binary64} (h : x.Exact) : ∃ s, x.marked? = some s ∧
    readNumber s.toList = some x ∧ ('.' ∈ s.toList ∨ 'e' ∈ s.toList) ∧
      ∀ c ∈ s.toList, isDigit c = true ∨ c = '.' ∨ c = 'e' ∨ c = '+' ∨ c = '-' := by
  have chars {negative : Bool} {body : List Char} (mark : '.' ∈ body ∨ 'e' ∈ body)
      (numeric : ∀ c ∈ body, isDigit c = true ∨ c = '.' ∨ c = 'e' ∨ c = '+' ∨ c = '-') :
      ('.' ∈ (signed negative body).toList ∨ 'e' ∈ (signed negative body).toList) ∧
        ∀ c ∈ (signed negative body).toList,
          isDigit c = true ∨ c = '.' ∨ c = 'e' ∨ c = '+' ∨ c = '-' := by
    rw [signed, String.toList_ofList]
    cases negative with
    | false => exact ⟨mark, numeric⟩
    | true => exact ⟨mark.imp (List.mem_cons_of_mem _) (List.mem_cons_of_mem _),
        List.forall_mem_cons.mpr ⟨by simp, numeric⟩⟩
  obtain ⟨proper, finite⟩ := h
  cases x with
  | nan | infinite => cases finite
  | finite negative m e =>
    obtain ⟨held, he⟩ := proper
    by_cases hm : m = 0
    · subst hm
      obtain rfl := zero_held held
      exact ⟨_, rfl, signed_read negative rfl, chars (by simp) (by simp [isDigit])⟩
    · obtain ⟨d, place, hs, hd, read⟩ := shortest_read (Nat.pos_of_ne_zero hm) held he
      have digits := numeral_digits d
      have marked : (Binary64.finite negative m e).marked? = some (signed negative
          (if -5 < ((Nat.toDigits 10 d).length + place : ℤ) ∧
              ((Nat.toDigits 10 d).length + place : ℤ) ≤ 16 then
            positional (Nat.toDigits 10 d) ((Nat.toDigits 10 d).length + place) ['.', '0']
          else scientific (Nat.toDigits 10 d) ((Nat.toDigits 10 d).length + place - 1))) := by
        rw [marked?, if_neg hm, hs]
      refine ⟨_, marked, ?_⟩
      split
      next =>
        obtain ⟨k, p, text, hk, value⟩ := positional_read negative hd place (.inr rfl)
        rw [read negative k p hk value] at text
        obtain ⟨mark, numeric⟩ := positional_chars digits ((Nat.toDigits 10 d).length + place)
        refine ⟨signed_read negative text, chars (.inl mark) fun c hc => ?_⟩
        exact (numeric c hc).imp_right .inl
      next =>
        have text := scientific_read negative d place
        rw [read negative d place hd rfl] at text
        obtain ⟨mark, numeric⟩ := scientific_chars digits ((Nat.toDigits 10 d).length + place - 1)
        exact ⟨signed_read negative text, chars (.inr mark) numeric⟩

theorem zero_proper (negative : Bool) : (zero negative).Proper :=
  ⟨⟨by norm_num, le_refl _, fun h => absurd h (lt_irrefl _)⟩, by norm_num⟩

theorem quotient_proper (negative : Bool) (num : ℕ) {den : ℕ} (hd : 0 < den) :
    (ofQuotient negative num den).Proper := by
  rcases Nat.eq_zero_or_pos num with rfl | hn
  · exact zero_proper negative
  · obtain ⟨m, e, held, -, -, h⟩ := quotient_rounds negative hn hd
    rw [h]
    split
    next => trivial
    next he => exact ⟨held, by omega⟩

theorem of_int_exact {i : ℤ} (hl : -2 ^ 63 ≤ i) (hu : i < 2 ^ 64) : (ofInt i).Exact := by
  refine ⟨quotient_proper _ _ Nat.one_pos, ?_⟩
  by_cases hi : i = 0
  · subst hi
    rfl
  · obtain ⟨m, w, e, normal, he, -, contains⟩ := integer_rounds hi hl hu
    rw [ofInt, (whole_finite normal he (Int.natAbs_pos.mpr hi) _ _).mpr ⟨rfl, contains⟩]
    rfl

theorem decimal_proper (negative : Bool) (digits : ℕ) (exponent : ℤ) :
    (ofDecimal negative digits exponent).Proper := by
  unfold ofDecimal
  dsimp only
  split_ifs
  · exact zero_proper negative
  · trivial
  · exact zero_proper negative
  · exact quotient_proper negative _ (ten_to_pos _)

theorem number_proper {s : List Char} {x : Binary64} (h : readNumber s = some x) : x.Proper := by
  unfold readNumber at h
  dsimp only at h
  split_ifs at h
  · exact Option.some.inj h ▸ trivial
  · exact Option.some.inj h ▸ trivial
  · unfold readUnsigned at h
    dsimp only at h
    split_ifs at h
    obtain ⟨_, -, rfl⟩ := Option.map_eq_some_iff.mp h
    exact decimal_proper _ _ _

theorem negated_proper {x : Binary64} (h : x.Proper) : x.negated.Proper := by
  cases x with
  | finite _ _ _ => exact h
  | nan | infinite _ => trivial

theorem mul_proper (x y : Binary64) : (x.mul y).Proper := by
  unfold mul
  split
  · exact quotient_proper _ _ (Nat.two_pow_pos _)
  · trivial

def Positive : Binary64 → Prop
  | finite _ m _ => 0 < m
  | nan | infinite _ => True

theorem div_proper (x : Binary64) {y : Binary64} (hy : y.Positive) : (x.div y).Proper := by
  unfold div
  split
  · exact quotient_proper _ _ (Nat.mul_pos hy (Nat.two_pow_pos _))
  · trivial

theorem quotient_positive (negative : Bool) {num den : ℕ} (hd : 0 < den) (h : den ≤ num) :
    (ofQuotient negative num den).Positive := by
  obtain ⟨m, e, held, contains, -, rounds⟩ := quotient_rounds negative (hd.trans_le h) hd
  rw [rounds]
  split
  next => trivial
  next =>
    refine Nat.pos_of_ne_zero fun hm => ?_
    subst hm
    obtain rfl := zero_held held
    have hq : (0 : ℚ) < den := Nat.cast_pos.mpr hd
    have one : (1 : ℚ) ≤ num / den := (one_le_div₀ hq).mpr (Nat.cast_le.mpr h)
    have small : (((4 * 0 + 2 : ℕ) : ℚ) * 2 ^ (-1074 - 2 : ℤ)) < 1 := by
      have powers : 2 < 2 ^ 1076 := by decide +kernel
      have unit : (2 : ℚ) ^ (-1074 - 2 : ℤ) = (2 ^ 1076)⁻¹ := zpow_neg 2 1076
      rw [unit, ← div_eq_mul_inv, div_lt_one (by positivity)]
      exact_mod_cast powers
    exact absurd (one.trans contains.high) (not_le.mpr small)

end Binary64

end CohortQuery
