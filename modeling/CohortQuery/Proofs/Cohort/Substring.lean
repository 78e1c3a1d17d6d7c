import CohortQuery.Proofs.Cohort.Definition
import CohortQuery.Proofs.Compiled
import CohortQuery.Proofs.Decimal.Shortest
import CohortQuery.Proofs.Text.Like

/-!
# Numbers as substrings

A comparison of texts searches a number under the numeral of the binary64 number that it becomes. Of
the integers that become this number it is the one with the most zeros at its end.
-/

set_option autoImplicit false

namespace CohortQuery

open Sql (Bag PropertyTest)

/-- The number that is held; there is none in an infinity. -/
def Binary64.value : Binary64 → ℚ
  | finite negative m e => (if negative then -1 else 1) * (m * 2 ^ e)
  | _ => 0

namespace Decimal

/-- Of the integers that become the same number as `n` the one with the most zeros at its end, and
of those with as many the nearest to that number. -/
structure Stands (k n : ℤ) : Prop where
  same : Binary64.ofInt k = Binary64.ofInt n
  zeros {j : ℤ} (h : Binary64.ofInt j = Binary64.ofInt n) {q : ℕ} (hq : 10 ^ q ∣ j) : 10 ^ q ∣ k
  nearest {j : ℤ} (h : Binary64.ofInt j = Binary64.ofInt n) (hz : ∀ q, 10 ^ q ∣ k → 10 ^ q ∣ j)
    (hne : j ≠ k) : |k - (Binary64.ofInt n).value| < |j - (Binary64.ofInt n).value|

theorem stands_unique {k l n : ℤ} (hk : Stands k n) (hl : Stands l n) : k = l := by
  by_contra hne
  have toward := hk.nearest hl.same (fun _ hq => hl.zeros hk.same hq) (Ne.symm hne)
  have back := hl.nearest hk.same (fun _ hq => hk.zeros hl.same hq) hne
  exact lt_asymm toward back

theorem power_dvd (q : ℕ) (j : ℤ) : 10 ^ q ∣ j ↔ 10 ^ q ∣ j.natAbs := by
  exact_mod_cast Int.natCast_dvd (m := 10 ^ q) (n := j)

theorem signed_distance {j : ℤ} {negative : Bool} (h : j < 0 ↔ negative = true) (v : ℚ) :
    |j - (if negative then -1 else 1) * v| = |j.natAbs - v| := by
  cases negative
  · have hj : (j.natAbs : ℚ) = j := by
      rw [← Int.cast_natCast, Int.natAbs_of_nonneg (by simpa using h)]
    rw [hj, if_neg Bool.false_ne_true, one_mul]
  · have hj : (j.natAbs : ℚ) = -j := by
      rw [← Int.cast_natCast, Int.ofNat_natAbs_of_nonpos (h.mpr rfl).le, Int.cast_neg]
    rw [hj, if_pos rfl, neg_one_mul, sub_neg_eq_add, ← abs_neg, neg_add, sub_eq_add_neg]

theorem of_int_zero {j : ℤ} (h : Binary64.ofInt j = Binary64.ofInt 0) : j = 0 := by
  by_contra hj
  obtain ⟨m, e, hm, -, -, hr⟩ := whole_rounds (j < 0) (Int.natAbs_pos.mpr hj)
  have zero : Binary64.ofInt 0 = .finite false 0 (-1074) := rfl
  rw [zero, Binary64.ofInt, hr] at h
  split at h
  · cases h
  · have hz := (Binary64.finite.inj h).2.1
    exact absurd hm.least (by rw [hz]; norm_num)

/-- An integer is written as the one that stands for it, which up to `2^53` is itself. -/
theorem plain_stands {n : ℤ} (hl : -2 ^ 63 ≤ n) (hu : n < 2 ^ 64) : ∃ k, Stands k n ∧
    (n.natAbs ≤ 2 ^ 53 → k = n) ∧ (Binary64.ofInt n).plain = Text.signedNumeral k := by
  by_cases hn : n = 0
  · subst hn
    exact ⟨0, ⟨rfl, fun _ _ _ => dvd_zero _, fun h _ hne => absurd (of_int_zero h) hne⟩,
      fun _ => rfl, rfl⟩
  obtain ⟨m, w, e, h, he, hw, hc⟩ := integer_rounds hn hl hu
  have same (j : ℤ) := of_int_same h he hn hc j
  have finite : Binary64.ofInt n = .finite (n < 0) m e :=
    (whole_finite h he (Int.natAbs_pos.mpr hn) _ _).mpr ⟨rfl, hc⟩
  have value : (Binary64.ofInt n).value =
      (if decide (n < 0) then -1 else 1) * (Interval.ofFinite m e).middle := by
    rw [finite, middle_eq]
    rfl
  obtain ⟨a, ha, roundest, plain⟩ := plain_whole h hw
  let k : ℤ := if decide (n < 0) then -a else a
  have abs : k.natAbs = a := by
    by_cases hs : n < 0 <;> simp [k, hs]
  have sign : k < 0 ↔ n < 0 := by
    by_cases hs : n < 0 <;> simp [k, hs, ha]
  refine ⟨k, ⟨(same k).mpr ⟨by omega, sign, abs ▸ roundest.contained⟩, ?_, ?_⟩, fun small => ?_,
    finite ▸ plain _⟩
  · intro j hj q hq
    rw [power_dvd] at hq ⊢
    rw [abs]
    exact roundest.zeros ((same j).mp hj).2.2 hq
  · intro j hj hz hne
    obtain ⟨-, hs, hcj⟩ := (same j).mp hj
    rw [value, signed_distance (by simpa using sign), signed_distance (by simpa using hs), abs]
    refine roundest.nearest hcj (fun q hq => ?_) fun he => hne ?_
    · exact (power_dvd q j).mp (hz q ((power_dvd q k).mpr (abs ▸ hq)))
    · rcases Int.natAbs_eq_natAbs_iff.mp (he.trans abs.symm) with hjk | hjk <;> omega
  · have found := roundest_small h hc small roundest
    omega

end Decimal

theorem text_searched {allowed : AllowList} {property : String} {key : PropertyName}
    (hk : allowed.check property = .ok key) (bag : Bag) (negated : Bool) (b : Bindings)
    {v : Json} {s : Scalar} (hv : Scalar.ofOperand property (some v) = .ok s)
    (hs : s.toText ≠ "") :
    (compileProperty allowed bag property (.contains negated) (some v)).Yields b
      (⟨bag, key⟩, .like negated (place "coh_prop" b.counter .text))
      (b.bindAll [("coh_prop", .text (Text.Like.containing s.toText))]) :=
  (yields_property _ _ _ _ _ _ _ _).mpr
    ⟨key, _, _, hk, .like negated hv (by simpa using hs), rfl, rfl⟩

/-- The statement for an integer is that for its numeral, but it searches the numeral of the integer
that stands for it. So the two bind the same pattern only where an integer stands for itself, as up
to `2^53` each does. -/
theorem integer_searched {n : ℤ} (hl : -2 ^ 63 ≤ n) (hu : n < 2 ^ 64) : ∃ k, Decimal.Stands k n ∧
    (∀ l, Decimal.Stands l n → l = k) ∧ (n.natAbs ≤ 2 ^ 53 → k = n) ∧
    ∀ {allowed : AllowList} {property : String} {key : PropertyName},
      allowed.check property = .ok key → ∀ (bag : Bag) (negated : Bool) (b : Bindings),
        let compiled (operand : Json) :=
          compileProperty allowed bag property (.contains negated) (some operand)
        let test := (⟨bag, key⟩, PropertyTest.like negated (place "coh_prop" b.counter .text))
        let pattern (j : ℤ) := Value.text (Text.Like.containing (Text.signedNumeral j))
        (compiled (.number (.integer n))).Yields b test (b.bindAll [("coh_prop", pattern k)]) ∧
          (compiled (.text (Text.signedNumeral n))).Yields b test
            (b.bindAll [("coh_prop", pattern n)]) ∧
          ((compiled (.number (.integer n))).outcome b =
            (compiled (.text (Text.signedNumeral n))).outcome b ↔ k = n) := by
  obtain ⟨k, stands, small, plain⟩ := Decimal.plain_stands hl hu
  refine ⟨k, stands, fun l hl => Decimal.stands_unique hl stands, small,
    fun hk bag negated b => ?_⟩
  intro compiled test pattern
  have number : (compiled (.number (.integer n))).Yields b test
      (b.bindAll [("coh_prop", pattern k)]) := by
    have hs : Scalar.toText (.number (.ofInt n)) = Text.signedNumeral k := plain
    have searched := text_searched hk bag negated b (v := .number (.integer n)) rfl
      (hs ▸ Text.signed_nonempty k)
    rwa [hs] at searched
  have text : (compiled (.text (Text.signedNumeral n))).Yields b test
      (b.bindAll [("coh_prop", pattern n)]) :=
    text_searched hk bag negated b (s := .text (Text.signedNumeral n)) rfl (Text.signed_nonempty n)
  refine ⟨number, text, fun same => ?_, ?_⟩
  · have bound (j : ℤ) : (b.bindAll [("coh_prop", pattern j)]).params.get?
        (Bindings.freshName "coh_prop" b.counter) = some (pattern j) := get_set _ _ _
    have left : b.bindAll [("coh_prop", pattern k)] = b.bindAll [("coh_prop", pattern n)] :=
      (Prod.mk.inj (Eq.trans (Eq.symm number) (Eq.trans same text))).2
    have found := bound k
    rw [left, bound n] at found
    have texts := Value.text.inj (Option.some.inj found)
    exact (Text.signed_injective (Text.Like.containing_injective texts)).symm
  · rintro rfl
    exact Eq.trans number (Eq.symm text)

theorem code_searched : ∃ key, (AllowList.ofNames ["code"]).check "code" = .ok key ∧
    ∀ (bag : Bag) (negated : Bool) (b : Bindings),
      (compileProperty (.ofNames ["code"]) bag "code" (.contains negated)
        (some (.number (.integer (-42))))).outcome b =
      (compileProperty (.ofNames ["code"]) bag "code" (.contains negated)
        (some (.text "-42"))).outcome b := by
  obtain ⟨k, -, -, small, searched⟩ := integer_searched (n := -42) (by norm_num) (by norm_num)
  refine ⟨⟨"code", by decide⟩, rfl, fun bag negated b => ?_⟩
  exact (searched rfl bag negated b).2.2.mpr (small (by decide))

def codeListing (operand : String) : Except CompileError Query := do
  let d ← Definition.read ("\x7b\"kind\":\"and\",\"members\":[\x7b\"kind\":\"person_property\"," ++
    "\"property\":\"code\",\"operator\":\"contains\",\"value\":" ++ operand ++ "\x7d]\x7d")
  let b ← Bindings.start "6f1c2b8e-3d4a-4e5f-8a9b-0c1d2e3f4a5b" none
  d.listing (.ofNames ["code"]) b

/-- Of two neighbours with one binary64 number the even one is searched for both. -/
theorem odd_integer_moved :
    let params (pattern : String) : Params := [("coh_prop_0", .text pattern),
      ("project_id", .uuid "6f1c2b8e-3d4a-4e5f-8a9b-0c1d2e3f4a5b")]
    (codeListing "9007199254740993").toOption.map Query.params =
        some (params "%9007199254740992%") ∧
      (codeListing "\"9007199254740993\"").toOption.map Query.params =
        some (params "%9007199254740993%") := by
  intro params
  have code (operand : String) {cs : List Char} (ho : operand.toList = cs) :
      codeListing operand = (_ : Except CompileError Definition) >>= fun d =>
        Bindings.start "6f1c2b8e-3d4a-4e5f-8a9b-0c1d2e3f4a5b" none >>=
          d.listing (.ofNames ["code"]) :=
    congrArg (· >>= _) (Definition.read_chars (Json.chars_append (Json.chars_append
      (Json.chars_append String.toList_ofList String.toList_ofList) ho) String.toList_ofList))
  have start : Bindings.start "6f1c2b8e-3d4a-4e5f-8a9b-0c1d2e3f4a5b" none =
      .ok ⟨[("project_id", .uuid "6f1c2b8e-3d4a-4e5f-8a9b-0c1d2e3f4a5b")], 0, none⟩ :=
    grouped_start rfl
  constructor
  · rw [code "9007199254740993" String.toList_ofList, start]
    decide +kernel
  · rw [code "\"9007199254740993\"" String.toList_ofList, start]
    decide +kernel

end CohortQuery
