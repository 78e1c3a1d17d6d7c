import CohortQuery.Proofs.Time.Layout

/-!
# The store form

The store form of a point is read as this point, so it is its own store form. The same holds for
a date and a time of the day with another number of digits behind the second, as far as
milliseconds go.
-/

set_option autoImplicit false

namespace CohortQuery.Time

open CohortQuery.Text (isBlank isDigit ofDigits paddedNumeral padded_digits padded_length
  padded_value padded_ne_nil)

theorem digit_solid {c : Char} (h : isDigit c = true) : isBlank c = false := by
  have hc := Text.digit_bounds h
  simp only [isBlank, Bool.or_eq_false_iff, Bool.and_eq_false_iff, decide_eq_false_iff_not,
    beq_eq_false_iff_ne]
  omega

section

variable {ds : List Char} (hd : ∀ c ∈ ds, isDigit c = true) (hn : ds ≠ [])

include hd hn

theorem run_front (r : List Char) : ∀ c ∈ (ds ++ r).head?, isDigit c = true := by
  obtain ⟨d, ds, rfl⟩ := List.exists_cons_of_ne_nil hn
  rintro c ⟨⟩
  exact hd d (by simp)

theorem skip_run (r : List Char) : skipBlanks (ds ++ r) = ds ++ r :=
  Text.front_kept fun c hc => digit_solid (run_front hd hn r c hc)

theorem up_to_written (r : List Char) :
    upToDigits ds.length (ds ++ r) = some (ofDigits ds, r) := by
  have ht : ((ds ++ r).take ds.length).takeWhile isDigit = ds := by
    rw [List.take_left, List.takeWhile_eq_self_iff]
    exact hd
  have he : ds.isEmpty = false := by simpa using hn
  simp only [upToDigits, ht, he, List.drop_left]
  rfl

theorem many_written {r : List Char} (hr : ∀ c ∈ r.head?, isDigit c = false) :
    manyDigits (ds ++ r) = some (ofDigits ds, r) := by
  simp [manyDigits, take_run hd hr, hn]

end

theorem short_written {n : Nat} (h : n < 100) (r : List Char) :
    shortNumber ((paddedNumeral 2 n).toList ++ r) = some (n, r) := by
  have hd := padded_digits 2 n
  have hn := padded_ne_nil 2 n
  have hw := up_to_written hd hn r
  rw [padded_length (by decide) h, padded_value] at hw
  rw [shortNumber, skip_run hd hn, hw]

theorem year_unsigned {y : Int} (h : 0 ≤ y ∧ y ≤ 9999) :
    (renderYear y).toList = (paddedNumeral 4 y.toNat).toList := by
  rw [renderYear, if_pos h]

theorem year_signed {y : Int} (h : ¬(0 ≤ y ∧ y ≤ 9999)) : (renderYear y).toList =
    (if y < 0 then '-' else '+') :: (paddedNumeral 4 y.natAbs).toList := by
  rw [renderYear, if_neg h, String.toList_append]
  split <;> rfl

theorem year_written (y : Int) (r : List Char) :
    signedYear ((renderYear y).toList ++ '-' :: r) = some (y, '-' :: r) := by
  unfold signedYear
  by_cases hy : 0 ≤ y ∧ y ≤ 9999
  · have hd := padded_digits 4 y.toNat
    have hn := padded_ne_nil 4 y.toNat
    have hf := run_front hd hn ('-' :: r)
    have hw := up_to_written hd hn ('-' :: r)
    rw [padded_length (by decide) (by omega), padded_value] at hw
    rw [year_unsigned hy, skip_run hd hn]
    split
    · next s hs => cases hf '-' (by rw [hs]; rfl)
    · next s hs => cases hf '+' (by rw [hs]; rfl)
    · simp only [hw, Option.map_some, Int.toNat_of_nonneg hy.1]
  · have hr : ∀ c ∈ ('-' :: r).head?, isDigit c = false := by
      rintro c ⟨⟩
      rfl
    have hw := many_written (padded_digits 4 y.natAbs) (padded_ne_nil 4 y.natAbs) hr
    rw [padded_value] at hw
    rw [year_signed hy]
    by_cases hs : y < 0
    · have hk (s : List Char) : skipBlanks ('-' :: s) = '-' :: s := rfl
      have hv : -(y.natAbs : Int) = y := by omega
      rw [if_pos hs, List.cons_append, hk]
      simp only [hw, Option.map_some, hv]
    · have hk (s : List Char) : skipBlanks ('+' :: s) = '+' :: s := rfl
      have hv : (y.natAbs : Int) = y := by omega
      rw [if_neg hs, List.cons_append, hk]
      simp only [hw, Option.map_some, hv]

theorem date_chars (d : Date) : d.render.toList = (renderYear d.year).toList ++
    '-' :: ((paddedNumeral 2 d.month).toList ++ '-' :: (paddedNumeral 2 d.day).toList) := by
  simp [Date.render]

theorem date_written {d : Date} (h : d.valid = true) (r : List Char) :
    looseDate (d.render.toList ++ r) = some (d, r) := by
  have hp := ((valid_date_proper d).mp h).2
  have hm := hp.month
  have hd := hp.day
  have hl := month_length d.year d.month
  simp only [date_chars, List.append_assoc, List.cons_append, looseDate, year_written, expect,
    short_written (by omega : d.month < 100), short_written (by omega : d.day < 100), if_true,
    validDate, h, Option.bind_eq_bind, Option.bind_some]
  rfl

theorem clock_chars (t : DateTime) : t.renderClock.toList = (paddedNumeral 2 t.hour).toList ++
    ':' :: ((paddedNumeral 2 t.minute).toList ++ ':' :: (paddedNumeral 2 t.second).toList) := by
  simp [DateTime.renderClock]

theorem clock_written {t : DateTime} (h : t.Proper) {ds : List Char}
    (hd : ∀ c ∈ ds, isDigit c = true) :
    looseClock t.date (t.renderClock.toList ++ fractionChars ds) =
      some { t with milli := milliseconds ds } := by
  have hh := h.hour
  have hm := h.minute
  have hs := h.second
  have hf := fraction_written hd (r := []) (by simp [Behind])
  rw [List.append_nil] at hf
  simp only [clock_chars, List.append_assoc, List.cons_append, looseClock, expect, if_true,
    short_written (by omega : t.hour < 100), short_written (by omega : t.minute < 100),
    short_written (by omega : t.second < 100), hf, Option.bind_eq_bind, Option.bind_some,
    List.isEmpty_nil, clock_iff]
  exact ⟨⟨hh, hm, hs⟩, trivial⟩

namespace DateTime

/-- A date and a time of the day in the layout of the store form, with the digits of a fraction. -/
def naive (t : DateTime) (ds : List Char) : String :=
  t.date.render ++ " " ++ t.renderClock ++ String.ofList (fractionChars ds)

theorem naive_chars (t : DateTime) (ds : List Char) : (t.naive ds).toList =
    t.date.render.toList ++ ' ' :: (t.renderClock.toList ++ fractionChars ds) := by
  simp [naive]

theorem render_naive (t : DateTime) : t.render = t.naive (paddedNumeral 3 t.milli).toList := by
  rw [naive, fractionChars, if_neg (padded_ne_nil 3 t.milli)]
  apply String.toList_inj.mp
  simp [render]

end DateTime

theorem naive_digits (t : DateTime) {ds : List Char} (hd : ∀ c ∈ ds, isDigit c = true) :
    ∃ s run, (∀ c ∈ run, isDigit c = true) ∧ run ≠ [] ∧ (t.naive ds).toList = s ++ run := by
  by_cases hn : ds = []
  · refine ⟨t.date.render.toList ++ ' ' :: ((paddedNumeral 2 t.hour).toList ++
      ':' :: ((paddedNumeral 2 t.minute).toList ++ [':'])), _, padded_digits 2 t.second,
      padded_ne_nil 2 t.second, ?_⟩
    simp [DateTime.naive_chars, clock_chars, fractionChars, hn]
  · refine ⟨t.date.render.toList ++ ' ' :: (t.renderClock.toList ++ ['.']), ds, hd, hn, ?_⟩
    simp [DateTime.naive_chars, fractionChars, hn]

theorem date_front (d : Date) (r : List Char) :
    ∀ c ∈ (d.render.toList ++ r).head?, isBlank c = false := by
  rw [date_chars, List.append_assoc]
  intro c hc
  by_cases hy : 0 ≤ d.year ∧ d.year ≤ 9999
  · rw [year_unsigned hy] at hc
    exact digit_solid (run_front (padded_digits 4 _) (padded_ne_nil 4 _) _ c hc)
  · rw [year_signed hy] at hc
    obtain rfl : (if d.year < 0 then '-' else '+') = c := Option.some.inj hc
    split <;> decide

theorem naive_trimmed (t : DateTime) {ds : List Char} (hd : ∀ c ∈ ds, isDigit c = true) :
    Text.Trimmed (t.naive ds).toList := by
  obtain ⟨s, run, hr, hn, hs⟩ := naive_digits t hd
  constructor
  · rw [DateTime.naive_chars]
    exact date_front t.date _
  · intro c hc
    rw [hs, List.getLast?_append, List.getLast?_eq_some_getLast hn, Option.some_or] at hc
    obtain rfl := Option.some.inj hc
    exact digit_solid (hr _ (List.getLast_mem hn))

theorem naive_read {t : DateTime} (h : t.Valid) {ds : List Char}
    (hd : ∀ c ∈ ds, isDigit c = true) :
    Stamp.read (t.naive ds) = some (.point { t with milli := milliseconds ds }) := by
  have hb (s : List Char) : skipBlanks (' ' :: s) = skipBlanks s := rfl
  have hs : skipBlanks (' ' :: (t.renderClock.toList ++ fractionChars ds)) =
      t.renderClock.toList ++ fractionChars ds := by
    rw [hb, clock_chars, List.append_assoc, skip_run (padded_digits 2 _) (padded_ne_nil 2 _)]
  rw [Stamp.read_point, Text.trim_trimmed (naive_trimmed t hd), DateTime.naive_chars]
  -- That it is read with no offset is in `read_point`: the layouts exclude each other.
  refine .inr ?_
  simp only [withoutOffset, date_written (DateTime.valid_date h), Option.bind_eq_bind,
    Option.bind_some, hs, clock_written h.toProper hd]
  rfl

theorem milliseconds_written {n : Nat} (h : n ≤ 999) :
    milliseconds (paddedNumeral 3 n).toList = n := by
  have hl := padded_length (by decide : 0 < 3) (by omega : n < 10 ^ 3)
  rw [milliseconds, List.take_append_of_le_length (by omega), List.take_of_length_le (by omega),
    padded_value]

theorem render_read {t : DateTime} (h : t.Valid) : Stamp.read t.render = some (.point t) := by
  rw [DateTime.render_naive, naive_read h (padded_digits 3 _), milliseconds_written h.milli]

theorem render_injective {t u : DateTime} (ht : t.Valid) (hu : u.Valid)
    (h : t.render = u.render) : t = u := by
  have hr := render_read ht
  rw [h, render_read hu] at hr
  exact (Stamp.point.inj (Option.some.inj hr)).symm

theorem render_fixed {t : DateTime} (h : t.Valid) :
    startText t.render = some t.render ∧ endText t.render = some t.render := by
  rw [startText, endText, render_read h]
  exact ⟨rfl, rfl⟩

theorem render_clock (t : DateTime) {clock : String}
    (h : " " ++ (t.renderClock ++ ("." ++ paddedNumeral 3 t.milli)) = clock) :
    t.render = t.date.render ++ clock := by
  rw [← h]
  simp only [DateTime.render, String.append_assoc]

theorem day_render (d : Date) : (Stamp.day d).first.render = d.render ++ " 00:00:00.000" ∧
    (Stamp.day d).last.render = d.render ++ " 23:59:59.999" := by
  constructor
  · refine render_clock (Stamp.day d).first ?_
    simp only [Stamp.first, DateTime.renderClock]
    decide
  · refine render_clock (Stamp.day d).last ?_
    simp only [Stamp.last, DateTime.renderClock]
    decide

theorem last_not_before (p : Stamp) : ¬p.last.Before p.first := by
  cases p with
  | point t => simp [Stamp.first, Stamp.last, DateTime.Before]
  | day d =>
    simp only [Stamp.first, Stamp.last, DateTime.Before, DateTime.minutes, DateTime.millis]
    omega

/-- The valid points are those of all seconds, with a fraction or as a leap second. The store form
of each is its own store form, as a lower bound and as an upper one, and so is every text that a
bound is normalized to. -/
theorem store_form_fixed :
    (∀ t : DateTime, t.Valid ↔ ∃ seconds nanos, DateTime.ofEpoch? seconds nanos = some t) ∧
    (∀ seconds nanos t, DateTime.ofEpoch? seconds nanos = some t →
      startText t.render = some t.render ∧ endText t.render = some t.render) ∧
    (∀ s u, startText s = some u ∨ endText s = some u →
      startText u = some u ∧ endText u = some u) := by
  refine ⟨DateTime.valid_iff_epoch, fun seconds nanos t h => ?_, fun s u h => ?_⟩
  · exact render_fixed ((DateTime.valid_iff_epoch t).mpr ⟨seconds, nanos, h⟩)
  · simp only [startText, endText, Option.map_eq_some_iff] at h
    rcases h with ⟨p, hp, rfl⟩ | ⟨p, hp, rfl⟩
    · exact render_fixed (Stamp.read_valid hp).1
    · exact render_fixed (Stamp.read_valid hp).2

theorem leap_second_fixed : ∃ t : DateTime,
    DateTime.ofEpoch? 1483228799 1500999999 = some t ∧ t.render = "2016-12-31 23:59:60.500" ∧
    startText t.render = some t.render ∧ endText t.render = some t.render ∧
    endText " +10000-2-29" = some "+10000-02-29 23:59:59.999" ∧
    startText "+10000-02-29 23:59:59.999" = some "+10000-02-29 23:59:59.999" := by
  obtain ⟨-, hp, ht⟩ := store_form_fixed
  have h : DateTime.ofEpoch? 1483228799 1500999999 = some ⟨⟨2016, 12, 31⟩, 23, 59, 60, 500⟩ := by
    decide
  have hd : endText " +10000-2-29" = some "+10000-02-29 23:59:59.999" := by decide
  obtain ⟨h1, h2⟩ := hp _ _ _ h
  exact ⟨_, h, by decide, h1, h2, hd, (ht _ _ (.inr hd)).1⟩

end CohortQuery.Time
