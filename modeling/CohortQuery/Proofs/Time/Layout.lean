import CohortQuery.Proofs.Time.Zoned

/-!
# Layouts of timestamps

A timestamp is read in at most one of its three layouts, as they have different numbers of marks
between the parts of a clock. The store form is read as the point that it is written for, so it is
its own store form.
-/

set_option autoImplicit false

namespace CohortQuery.Time

open CohortQuery.Text (isBlank isDigit ofDigits paddedNumeral padded_digits padded_length
  padded_value padded_ne_nil)

def isClockMark (c : Char) : Bool :=
  c = ':' || c = 'Z' || c = 'z'

def clockMarks (s : List Char) : Nat :=
  s.countP isClockMark

theorem marks_append (s t : List Char) : clockMarks (s ++ t) = clockMarks s + clockMarks t :=
  List.countP_append

theorem marks_cons (c : Char) (s : List Char) :
    clockMarks (c :: s) = clockMarks s + if isClockMark c then 1 else 0 :=
  List.countP_cons

theorem digit_unmarked {c : Char} (h : isDigit c = true) : isClockMark c = false := by
  have hc := Text.digit_bounds h
  have h1 : ':'.toNat = 58 := rfl
  have h2 : 'Z'.toNat = 90 := rfl
  have h3 : 'z'.toNat = 122 := rfl
  have hn (d : Char) (hd : 57 < d.toNat) : c ≠ d := fun h => by rw [h] at hc; omega
  simp [isClockMark, hn ':' (by omega), hn 'Z' (by omega), hn 'z' (by omega)]

theorem digits_unmarked {ds : List Char} (h : ∀ c ∈ ds, isDigit c = true) : clockMarks ds = 0 :=
  List.countP_eq_zero.mpr fun c hc => by rw [digit_unmarked (h c hc)]; decide

theorem padded_unmarked (width n : Nat) : clockMarks (paddedNumeral width n).toList = 0 :=
  digits_unmarked (padded_digits width n)

theorem blank_unmarked {c : Char} (h : isBlank c = true) : isClockMark c = false := by
  by_contra hc
  simp only [isClockMark, Bool.not_eq_false, Bool.or_eq_true, decide_eq_true_eq] at hc
  rcases hc with (rfl | rfl) | rfl <;> revert h <;> decide

theorem skip_marks (s : List Char) : clockMarks (skipBlanks s) = clockMarks s := by
  induction s with
  | nil => rfl
  | cons c s ih =>
    by_cases hc : isBlank c = true
    · have hs : skipBlanks (c :: s) = skipBlanks s := List.dropWhile_cons_of_pos hc
      rw [hs, ih, marks_cons, blank_unmarked hc]
      rfl
    · have hs : skipBlanks (c :: s) = c :: s := List.dropWhile_cons_of_neg hc
      rw [hs]

theorem fraction_unmarked {ds : List Char} (h : ∀ c ∈ ds, isDigit c = true) :
    clockMarks (fractionChars ds) = 0 := by
  unfold fractionChars
  split
  · rfl
  · rw [marks_cons, digits_unmarked h]
    rfl

theorem run_marks (s : List Char) (most : Nat) :
    clockMarks (s.drop ((s.take most).takeWhile isDigit).length) = clockMarks s := by
  have hp : (s.take most).takeWhile isDigit <+: s :=
    (List.takeWhile_prefix _).trans (List.take_prefix _ _)
  have hs := List.prefix_iff_eq_append.mp hp
  have hd : clockMarks ((s.take most).takeWhile isDigit) = 0 :=
    digits_unmarked fun c hc => List.mem_takeWhile_imp hc
  have hm := congrArg clockMarks hs
  rw [marks_append, hd, Nat.zero_add] at hm
  exact hm

theorem up_to_marks {most n : Nat} {s r : List Char} (h : upToDigits most s = some (n, r)) :
    clockMarks s = clockMarks r := by
  simp only [upToDigits, Option.ite_none_left_eq_some, Option.some.injEq, Prod.mk.injEq] at h
  obtain ⟨_, _, rfl⟩ := h
  exact (run_marks s most).symm

theorem many_marks {n : Nat} {s r : List Char} (h : manyDigits s = some (n, r)) :
    clockMarks s = clockMarks r := by
  simp only [manyDigits, Option.ite_none_left_eq_some, Option.some.injEq, Prod.mk.injEq] at h
  obtain ⟨_, _, rfl⟩ := h
  have hm := run_marks s s.length
  rw [List.take_length] at hm
  exact hm.symm

theorem short_marks {n : Nat} {s r : List Char} (h : shortNumber s = some (n, r)) :
    clockMarks s = clockMarks r :=
  (skip_marks s).symm.trans (up_to_marks h)

theorem year_marks {y : Int} {s r : List Char} (h : signedYear s = some (y, r)) :
    clockMarks s = clockMarks r := by
  rw [← skip_marks]
  unfold signedYear at h
  split at h
  · next s' hs =>
    obtain ⟨⟨n, _⟩, hn, he⟩ := Option.map_eq_some_iff.mp h
    obtain ⟨_, rfl⟩ := Prod.mk.inj he
    rw [hs, marks_cons, many_marks hn]
    rfl
  · next s' hs =>
    obtain ⟨⟨n, _⟩, hn, he⟩ := Option.map_eq_some_iff.mp h
    obtain ⟨_, rfl⟩ := Prod.mk.inj he
    rw [hs, marks_cons, many_marks hn]
    rfl
  · obtain ⟨⟨n, _⟩, hn, he⟩ := Option.map_eq_some_iff.mp h
    obtain ⟨_, rfl⟩ := Prod.mk.inj he
    exact up_to_marks hn

theorem expect_marks {c : Char} {s r : List Char} (h : expect c s = some r) :
    clockMarks s = clockMarks r + if isClockMark c then 1 else 0 := by
  rw [(expect_iff c s r).mp h, marks_cons]

theorem loose_date_read {s r : List Char} {d : Date} (h : looseDate s = some (d, r)) :
    d.valid = true ∧ clockMarks s = clockMarks r := by
  unfold looseDate at h
  obtain ⟨⟨year, s₁⟩, hy, h⟩ := Option.bind_eq_some_iff.mp h
  obtain ⟨s₂, h1, h⟩ := Option.bind_eq_some_iff.mp h
  obtain ⟨⟨month, s₃⟩, hm, h⟩ := Option.bind_eq_some_iff.mp h
  obtain ⟨s₄, h2, h⟩ := Option.bind_eq_some_iff.mp h
  obtain ⟨⟨day, s₅⟩, hd, h⟩ := Option.bind_eq_some_iff.mp h
  obtain ⟨d', hv, h⟩ := Option.bind_eq_some_iff.mp h
  obtain ⟨rfl, rfl⟩ := Prod.mk.inj (Option.some.inj h)
  refine ⟨((valid_date_iff _ _ _ _).mp hv).2, ?_⟩
  exact (year_marks hy).trans ((expect_marks h1).trans ((short_marks hm).trans
    ((expect_marks h2).trans (short_marks hd))))

theorem loose_clock_read {d : Date} {s : List Char} {t : DateTime}
    (h : looseClock d s = some t) (hd : d.valid = true) : t.Valid ∧ clockMarks s = 2 := by
  unfold looseClock at h
  obtain ⟨⟨hour, s₁⟩, hh, h⟩ := Option.bind_eq_some_iff.mp h
  obtain ⟨s₂, h1, h⟩ := Option.bind_eq_some_iff.mp h
  obtain ⟨⟨minute, s₃⟩, hm, h⟩ := Option.bind_eq_some_iff.mp h
  obtain ⟨s₄, h2, h⟩ := Option.bind_eq_some_iff.mp h
  obtain ⟨⟨second, s₅⟩, hs, h⟩ := Option.bind_eq_some_iff.mp h
  obtain ⟨⟨milli, s₆⟩, hf, h⟩ := Option.bind_eq_some_iff.mp h
  obtain ⟨ds, hds, -, he, rfl⟩ := fraction_read hf
  obtain ⟨hn, hc⟩ := (Option.ite_none_right_eq_some).mp h
  obtain ⟨hb, rfl⟩ := (clock_iff _ _ _ _ _ _).mp hc
  refine ⟨DateTime.valid_clock hd hb (milliseconds_lt hds), ?_⟩
  have hz : clockMarks s₅ = 0 := by
    rw [← he, marks_append, fraction_unmarked hds, List.isEmpty_iff.mp hn]
    rfl
  have hs₄ : clockMarks s₄ = 0 := (short_marks hs).trans hz
  have hs₂ : clockMarks s₂ = 1 := by
    rw [short_marks hm, expect_marks h2, hs₄]
    rfl
  rw [short_marks hh, expect_marks h1, hs₂]
  rfl

theorem without_offset_read {s : List Char} {t : DateTime} (h : withoutOffset s = some t) :
    t.Valid ∧ clockMarks s = 2 := by
  unfold withoutOffset at h
  obtain ⟨⟨d, r⟩, hd, h⟩ := Option.bind_eq_some_iff.mp h
  obtain ⟨hv, hr⟩ := loose_date_read hd
  rw [hr]
  rcases (Option.orElse_eq_some _ _ _).mp h with h | ⟨-, h⟩
  · obtain ⟨ht, hm⟩ := loose_clock_read h hv
    exact ⟨ht, (skip_marks r).symm.trans hm⟩
  · obtain ⟨r', he, h⟩ := Option.bind_eq_some_iff.mp h
    obtain ⟨ht, hm⟩ := loose_clock_read h hv
    exact ⟨ht, (expect_marks he).trans hm⟩

theorem bare_date_read {s : List Char} {d : Date} (h : bareDate s = some d) :
    d.valid = true ∧ clockMarks s = 0 := by
  unfold bareDate at h
  obtain ⟨⟨d', r⟩, hd, h⟩ := Option.bind_eq_some_iff.mp h
  obtain ⟨hn, he⟩ := Option.ite_none_right_eq_some.mp h
  obtain rfl := Option.some.inj he
  obtain ⟨hv, hr⟩ := loose_date_read hd
  rw [List.isEmpty_iff.mp hn] at hr
  exact ⟨hv, hr⟩

theorem zone_marks {z : Zone} (h : z.Spelled) : clockMarks z.chars = 1 := by
  cases z with
  | utc mark => rcases h with rfl | rfl <;> rfl
  | apart sign hours minutes =>
    have hs : isClockMark sign = false := by
      rcases h.1 with rfl | rfl | rfl <;> rfl
    rw [Zone.chars, List.cons_append, marks_cons, marks_append, marks_cons, padded_unmarked,
      padded_unmarked, hs]
    rfl

theorem zoned_marks {z : Zoned} (h : z.Spelled) : clockMarks z.chars = 3 := by
  have hm : isClockMark z.mark = false := by
    rcases h.mark with h | h | h <;> rw [h] <;> rfl
  simp only [Zoned.chars, marks_append, marks_cons, padded_unmarked, hm,
    fraction_unmarked h.fraction, zone_marks h.zone]
  rfl

theorem with_offset_marks {s : List Char} {t : DateTime} (h : withOffset s = some t) :
    clockMarks s = 3 := by
  obtain ⟨z, hs, -, rfl, -⟩ := (with_offset_iff s t).mp h
  exact zoned_marks hs

theorem with_offset_none {s : List Char} (h : clockMarks s ≠ 3) : withOffset s = none :=
  Option.eq_none_iff_forall_ne_some.mpr fun _ ht => h (with_offset_marks ht)

theorem without_offset_none {s : List Char} (h : clockMarks s ≠ 2) : withoutOffset s = none :=
  Option.eq_none_iff_forall_ne_some.mpr fun _ ht => h (without_offset_read ht).2

namespace Stamp

theorem read_point (s : String) (t : DateTime) : read s = some (.point t) ↔
    withOffset (Text.trimChars s.toList) = some t ∨
      withoutOffset (Text.trimChars s.toList) = some t := by
  simp only [read, Option.orElse_eq_some, Option.map_eq_some_iff, Stamp.point.injEq,
    exists_eq_right, Option.map_eq_none_iff, reduceCtorEq, and_false, exists_false, or_false]
  constructor
  · rintro (h | ⟨-, h⟩)
    · exact .inl h
    · exact .inr h
  · rintro (h | h)
    · exact .inl h
    · have h2 := (without_offset_read h).2
      exact .inr ⟨with_offset_none (by omega), h⟩

theorem read_day (s : String) (d : Date) : read s = some (.day d) ↔
    withOffset (Text.trimChars s.toList) = none ∧ withoutOffset (Text.trimChars s.toList) = none ∧
      bareDate (Text.trimChars s.toList) = some d := by
  simp only [read, Option.orElse_eq_some, Option.map_eq_some_iff, Stamp.day.injEq,
    exists_eq_right, Option.map_eq_none_iff, reduceCtorEq, and_false, exists_false, false_or]

theorem read_bare (s : String) (d : Date) :
    read s = some (.day d) ↔ bareDate (Text.trimChars s.toList) = some d := by
  rw [read_day]
  refine ⟨fun h => h.2.2, fun h => ?_⟩
  have h0 := (bare_date_read h).2
  exact ⟨with_offset_none (by omega), without_offset_none (by omega), h⟩

theorem read_valid {s : String} {p : Stamp} (h : read s = some p) :
    p.first.Valid ∧ p.last.Valid := by
  cases p with
  | point t =>
    have ht : t.Valid := by
      rcases (read_point s t).mp h with h | h
      · exact with_offset_valid h
      · exact (without_offset_read h).1
    exact ⟨ht, ht⟩
  | day d =>
    obtain ⟨hv, -⟩ := bare_date_read ((read_bare s d).mp h)
    exact ⟨DateTime.valid_clock hv (by decide) (by decide),
      DateTime.valid_clock hv (by decide) (by decide)⟩

end Stamp

end CohortQuery.Time
