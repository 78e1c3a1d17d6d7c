import CohortQuery.Proofs.Text.Numeral
import CohortQuery.Proofs.Text.Trim
import CohortQuery.Proofs.Time.Instant
import CohortQuery.Time.Stamp
import Mathlib.Data.List.Basic

/-!
# Times with an offset

A time with an offset is a date and a time of the day by the clocks of a zone, and the offset of
that zone. What is read as one is exactly what such a time is written as, and it is the time by
the clocks of the zone without its offset.
-/

set_option autoImplicit false

namespace CohortQuery.Time

open CohortQuery.Text (isDigit ofDigits digitValue paddedNumeral padded_digits padded_length
  padded_value padded_run padded_ne_nil)

theorem expect_iff (c : Char) (s r : List Char) : expect c s = some r ↔ s = c :: r := by
  cases s with
  | nil => simp [expect]
  | cons d s =>
    simp only [expect, Option.ite_none_right_eq_some, Option.some.injEq, List.cons.injEq]

theorem two_digits_iff (s r : List Char) (n : Nat) :
    twoDigits s = some (n, r) ↔ n < 100 ∧ (paddedNumeral 2 n).toList ++ r = s := by
  constructor
  · intro h
    rcases s with _ | ⟨a, _ | ⟨b, s⟩⟩
    · cases h
    · cases h
    · simp only [twoDigits, Bool.and_eq_true, Option.ite_none_right_eq_some, Option.some.injEq,
        Prod.mk.injEq] at h
      obtain ⟨⟨ha, hb⟩, rfl, rfl⟩ := h
      have hd : ∀ c ∈ [a, b], isDigit c = true := by simp [ha, hb]
      have hv : ofDigits [a, b] = 10 * digitValue a + digitValue b := by simp [ofDigits]
      have hr := padded_run hd (by simp)
      have hl := Text.of_digits_lt hd
      rw [hv] at hr hl
      exact ⟨hl, by rw [show 2 = [a, b].length from rfl, hr]; rfl⟩
  · rintro ⟨hn, rfl⟩
    have hl := padded_length (by decide : 0 < 2) hn
    have hd := padded_digits 2 n
    have hv := padded_value 2 n
    obtain ⟨a, b, hs⟩ := List.length_eq_two.mp hl
    rw [hs] at hd hv ⊢
    have hv : 10 * digitValue a + digitValue b = n := by simpa [ofDigits] using hv
    simp [twoDigits, hd a (by simp), hd b (by simp), hv]

def fractionChars (ds : List Char) : List Char :=
  if ds = [] then [] else '.' :: ds

/-- A text that a fraction may stand in front of: it does not go on with it. -/
def Behind (ds r : List Char) : Prop :=
  ∀ c ∈ r.head?, if ds = [] then c ≠ '.' else isDigit c = false

theorem take_run {ds r : List Char} (hd : ∀ c ∈ ds, isDigit c = true)
    (hr : ∀ c ∈ r.head?, isDigit c = false) : (ds ++ r).takeWhile isDigit = ds := by
  rw [List.takeWhile_append_of_pos hd]
  cases r with
  | nil => simp
  | cons c r => simp [hr c rfl]

theorem run_rest (s : List Char) : ∃ r, s.drop (s.takeWhile isDigit).length = r ∧
    s = s.takeWhile isDigit ++ r ∧ ∀ c ∈ r.head?, isDigit c = false := by
  have hs := List.takeWhile_append_dropWhile (p := isDigit) (l := s)
  refine ⟨s.dropWhile isDigit, ?_, hs.symm, Text.front_left isDigit s⟩
  have hd := congrArg (List.drop (s.takeWhile isDigit).length) hs
  rw [List.drop_left] at hd
  exact hd.symm

theorem fraction_written {ds r : List Char} (hd : ∀ c ∈ ds, isDigit c = true) (hr : Behind ds r) :
    fraction (fractionChars ds ++ r) = some (milliseconds ds, r) := by
  by_cases hn : ds = []
  · subst hn
    cases r with
    | nil => rfl
    | cons c r =>
      have hc : c ≠ '.' := by simpa using hr c rfl
      simp [fractionChars, fraction, hc, milliseconds]
      decide
  · have ht := take_run hd (fun c hc => by simpa [hn] using hr c hc)
    simp [fractionChars, hn, fraction, ht]

theorem fraction_read {s r : List Char} {m : Nat} (h : fraction s = some (m, r)) :
    ∃ ds, (∀ c ∈ ds, isDigit c = true) ∧ Behind ds r ∧ fractionChars ds ++ r = s ∧
      m = milliseconds ds := by
  unfold fraction at h
  split at h
  · next s =>
    simp only [Option.ite_none_left_eq_some, Option.some.injEq, Prod.mk.injEq,
      List.isEmpty_iff] at h
    obtain ⟨hn, rfl, hr⟩ := h
    obtain ⟨_, rfl, hs, hb⟩ := run_rest s
    refine ⟨s.takeWhile isDigit, fun c hc => List.mem_takeWhile_imp hc, ?_, ?_, rfl⟩
    · intro c hc
      rw [if_neg hn]
      exact hb c (hr ▸ hc)
    · rw [fractionChars, if_neg hn, List.cons_append, ← hr, ← hs]
  · next hs =>
    obtain ⟨rfl, rfl⟩ := Prod.mk.inj (Option.some.inj h)
    refine ⟨[], by simp, fun c hc => ?_, rfl, by decide⟩
    rw [if_pos rfl]
    rintro rfl
    obtain ⟨s', rfl⟩ := List.head?_eq_some_iff.mp hc
    exact hs s' rfl

/-- How a text names its zone: as UTC, or by a sign, hours and minutes. -/
inductive Zone where
  | utc (mark : Char)
  | apart (sign : Char) (hours minutes : Nat)
  deriving DecidableEq, Repr

namespace Zone

def east : Zone → Int
  | utc _ => 0
  | apart sign hours minutes =>
    if sign = '+' then hours * 60 + minutes else -(hours * 60 + minutes)

def chars : Zone → List Char
  | utc mark => [mark]
  | apart sign hours minutes =>
    sign :: (paddedNumeral 2 hours).toList ++ ':' :: (paddedNumeral 2 minutes).toList

def Spelled : Zone → Prop
  | utc mark => mark = 'Z' ∨ mark = 'z'
  | apart sign hours minutes =>
    (sign = '+' ∨ sign = '-' ∨ sign = '\u2212') ∧ hours < 100 ∧ minutes < 100

def InRange : Zone → Prop
  | utc _ => True
  | apart _ hours minutes => hours ≤ 23 ∧ minutes ≤ 59

end Zone

theorem minus_iff (c : Char) : c.toNat = 0x2212 ↔ c = '\u2212' :=
  ⟨fun h => Char.toNat_inj.mp h, fun h => h ▸ rfl⟩

theorem offset_iff (s r : List Char) (k : Int) : offset s = some (k, r) ↔
    ∃ z : Zone, z.Spelled ∧ z.InRange ∧ z.chars ++ r = s ∧ z.east = k := by
  constructor
  · intro h
    cases s with
    | nil => simp [offset] at h
    | cons c s =>
      simp only [offset, minus_iff] at h
      split at h
      · next hc =>
        obtain ⟨rfl, rfl⟩ := Prod.mk.inj (Option.some.inj h)
        exact ⟨.utc c, hc, trivial, rfl, rfl⟩
      · next hz =>
        split at h
        · next hc =>
          simp only [Option.bind_eq_bind, Option.bind_eq_some_iff, Prod.exists, two_digits_iff,
            expect_iff, Option.ite_none_left_eq_some, Option.pure_def, Option.some.injEq,
            Prod.mk.injEq] at h
          obtain ⟨hours, _, ⟨hh, rfl⟩, _, rfl, minutes, _, ⟨hm, rfl⟩, hr, hk, rfl⟩ := h
          refine ⟨.apart c hours minutes, ⟨hc, hh, hm⟩, by simp only [Zone.InRange]; omega, ?_, hk⟩
          simp [Zone.chars]
        · cases h
  · rintro ⟨z, hs, hr, rfl, rfl⟩
    cases z with
    | utc mark =>
      rcases hs with rfl | rfl <;> rfl
    | apart sign hours minutes =>
      obtain ⟨hc, hh, hm⟩ := hs
      have hn : ¬ (sign = 'Z' ∨ sign = 'z') := by
        rcases hc with rfl | rfl | rfl <;> decide
      have ho : ¬ (23 < hours ∨ 59 < minutes) := by
        have hr : hours ≤ 23 ∧ minutes ≤ 59 := hr
        omega
      have first := (two_digits_iff _ (':' :: ((paddedNumeral 2 minutes).toList ++ r)) hours).mpr
        ⟨hh, rfl⟩
      have second := (two_digits_iff _ r minutes).mpr ⟨hm, rfl⟩
      simp only [Zone.chars, List.cons_append, List.append_assoc, offset, minus_iff, if_neg hn,
        if_pos hc, first, expect, if_true, second, if_neg ho, Option.bind_eq_bind,
        Option.bind_some]
      rfl

/-- A date and a time of the day by the clocks of a zone. The digits of the fraction are those
behind the point; without any there is no point. -/
@[ext]
structure Zoned where
  year : Nat
  month : Nat
  day : Nat
  mark : Char
  hour : Nat
  minute : Nat
  second : Nat
  fraction : List Char
  zone : Zone
  deriving DecidableEq, Repr

namespace Zoned

/-- The point by the clocks of the zone, with the fraction cut to milliseconds. -/
def point (z : Zoned) : DateTime :=
  ⟨⟨z.year, z.month, z.day⟩, z.hour, z.minute, z.second, milliseconds z.fraction⟩

def chars (z : Zoned) : List Char :=
  (paddedNumeral 4 z.year).toList ++ '-' :: ((paddedNumeral 2 z.month).toList ++
    '-' :: ((paddedNumeral 2 z.day).toList ++ z.mark :: ((paddedNumeral 2 z.hour).toList ++
      ':' :: ((paddedNumeral 2 z.minute).toList ++ ':' :: ((paddedNumeral 2 z.second).toList ++
        (fractionChars z.fraction ++ z.zone.chars))))))

/-- The digits, marks and signs that a time with an offset is spelled with, whatever its numbers
are. -/
structure Spelled (z : Zoned) : Prop where
  year : z.year < 10000
  month : z.month < 100
  day : z.day < 100
  mark : z.mark = 'T' ∨ z.mark = 't' ∨ z.mark = ' '
  hour : z.hour < 100
  minute : z.minute < 100
  second : z.second < 100
  fraction : ∀ c ∈ z.fraction, isDigit c = true
  zone : z.zone.Spelled

/-- The date is one of the calendar, and the time and the offset are ones of a clock. -/
structure Accepted (z : Zoned) : Prop where
  point : z.point.Valid
  zone : z.zone.InRange

end Zoned

theorem milliseconds_lt {ds : List Char} (h : ∀ c ∈ ds, isDigit c = true) :
    milliseconds ds ≤ 999 := by
  have hd : ∀ c ∈ (ds ++ ['0', '0', '0']).take 3, isDigit c = true := by
    intro c hc
    rcases List.mem_append.mp (List.mem_of_mem_take hc) with hc | hc
    · exact h c hc
    · have h0 : c = '0' := by simpa using hc
      rw [h0]
      decide
  have hl := Text.of_digits_lt hd
  have hn : ((ds ++ ['0', '0', '0']).take 3).length = 3 := by simp
  rw [hn] at hl
  unfold milliseconds
  omega

theorem valid_date_iff (year : Int) (month day : Nat) (d : Date) :
    validDate year month day = some d ↔ d = ⟨year, month, day⟩ ∧ d.valid = true := by
  simp only [validDate, Option.ite_none_right_eq_some, Option.some.injEq]
  constructor
  · rintro ⟨h, rfl⟩
    exact ⟨rfl, h⟩
  · rintro ⟨rfl, h⟩
    exact ⟨h, rfl⟩

theorem clock_iff (d : Date) (hour minute second milli : Nat) (t : DateTime) :
    clock d hour minute second milli = some t ↔
      (hour ≤ 23 ∧ minute ≤ 59 ∧ second ≤ 60) ∧ ⟨d, hour, minute, second, milli⟩ = t := by
  simp only [clock, Option.ite_none_right_eq_some, Option.some.injEq]

theorem mark_iff (s r : List Char) : dateTimeMark s = some r ↔
    ∃ c, (c = 'T' ∨ c = 't' ∨ c = ' ') ∧ s = c :: r := by
  cases s with
  | nil => simp [dateTimeMark]
  | cons c s =>
    simp only [dateTimeMark, Option.ite_none_right_eq_some, Option.some.injEq, List.cons.injEq]
    constructor
    · rintro ⟨h, rfl⟩
      exact ⟨c, h, rfl, rfl⟩
    · rintro ⟨_, h, rfl, rfl⟩
      exact ⟨h, rfl⟩

theorem zone_behind (z : Zone) (h : z.Spelled) (ds : List Char) : Behind ds z.chars := by
  intro c hc
  cases z with
  | utc mark =>
    obtain rfl : mark = c := by simpa [Zone.chars] using hc
    rcases h with rfl | rfl <;> split <;> decide
  | apart sign hours minutes =>
    obtain rfl : sign = c := by simpa [Zone.chars] using hc
    rcases h.1 with rfl | rfl | rfl <;> split <;> decide

section

variable {α : Type} {b : α}

theorem two_digits_then (s : List Char) (f : Nat × List Char → Option α) :
    (twoDigits s >>= f) = some b ↔
      ∃ n r, n < 100 ∧ (paddedNumeral 2 n).toList ++ r = s ∧ f (n, r) = some b := by
  simp only [Option.bind_eq_bind, Option.bind_eq_some_iff, Prod.exists, two_digits_iff, and_assoc]

theorem expect_then (c : Char) (s : List Char) (f : List Char → Option α) :
    (expect c s >>= f) = some b ↔ ∃ r, s = c :: r ∧ f r = some b := by
  simp only [Option.bind_eq_bind, Option.bind_eq_some_iff, expect_iff]

theorem mark_then (s : List Char) (f : List Char → Option α) :
    (dateTimeMark s >>= f) = some b ↔
      ∃ c r, (c = 'T' ∨ c = 't' ∨ c = ' ') ∧ s = c :: r ∧ f r = some b := by
  simp only [Option.bind_eq_bind, Option.bind_eq_some_iff, mark_iff]
  constructor
  · rintro ⟨r, ⟨c, hc, hs⟩, h⟩
    exact ⟨c, r, hc, hs, h⟩
  · rintro ⟨c, r, hc, hs, h⟩
    exact ⟨r, ⟨c, hc, hs⟩, h⟩

theorem fraction_then (s : List Char) (f : Nat × List Char → Option α) :
    (fraction s >>= f) = some b ↔ ∃ ds r, (∀ c ∈ ds, isDigit c = true) ∧ Behind ds r ∧
      fractionChars ds ++ r = s ∧ f (milliseconds ds, r) = some b := by
  simp only [Option.bind_eq_bind, Option.bind_eq_some_iff, Prod.exists]
  constructor
  · rintro ⟨m, r, hf, h⟩
    obtain ⟨ds, hd, hr, hs, rfl⟩ := fraction_read hf
    exact ⟨ds, r, hd, hr, hs, h⟩
  · rintro ⟨ds, r, hd, hr, rfl, h⟩
    exact ⟨_, r, fraction_written hd hr, h⟩

theorem offset_then (s : List Char) (f : Int × List Char → Option α) :
    (offset s >>= f) = some b ↔ ∃ (z : Zone) (r : List Char), z.Spelled ∧ z.InRange ∧
      z.chars ++ r = s ∧ f (z.east, r) = some b := by
  simp only [Option.bind_eq_bind, Option.bind_eq_some_iff, Prod.exists, offset_iff]
  constructor
  · rintro ⟨k, r, ⟨z, hs, hr, rfl, rfl⟩, h⟩
    exact ⟨z, r, hs, hr, rfl, h⟩
  · rintro ⟨z, r, hs, hr, rfl, h⟩
    exact ⟨_, r, ⟨z, hs, hr, rfl, rfl⟩, h⟩

theorem date_then (year : Int) (month day : Nat) (f : Date → Option α) :
    (validDate year month day >>= f) = some b ↔
      (⟨year, month, day⟩ : Date).valid = true ∧ f ⟨year, month, day⟩ = some b := by
  simp only [Option.bind_eq_bind, Option.bind_eq_some_iff, valid_date_iff]
  constructor
  · rintro ⟨_, ⟨rfl, hv⟩, h⟩
    exact ⟨hv, h⟩
  · rintro ⟨hv, h⟩
    exact ⟨_, ⟨rfl, hv⟩, h⟩

theorem clock_then (d : Date) (hour minute second milli : Nat) (f : DateTime → Option α) :
    (clock d hour minute second milli >>= f) = some b ↔
      (hour ≤ 23 ∧ minute ≤ 59 ∧ second ≤ 60) ∧ f ⟨d, hour, minute, second, milli⟩ = some b := by
  simp only [Option.bind_eq_bind, Option.bind_eq_some_iff, clock_iff]
  constructor
  · rintro ⟨_, ⟨hv, rfl⟩, h⟩
    exact ⟨hv, h⟩
  · rintro ⟨hv, h⟩
    exact ⟨_, ⟨hv, rfl⟩, h⟩

end

theorem year_chars {c y : Nat} (hc : c < 100) (hy : y < 100) :
    (paddedNumeral 2 c).toList ++ (paddedNumeral 2 y).toList =
      (paddedNumeral 4 (100 * c + y)).toList := by
  have lc := padded_length (by decide : 0 < 2) hc
  have ly := padded_length (by decide : 0 < 2) hy
  have hl : ((paddedNumeral 2 c).toList ++ (paddedNumeral 2 y).toList).length = 4 := by
    rw [List.length_append, lc, ly]
  have hd : ∀ x ∈ (paddedNumeral 2 c).toList ++ (paddedNumeral 2 y).toList,
      isDigit x = true := by
    intro x hx
    rcases List.mem_append.mp hx with hx | hx
    · exact padded_digits 2 c x hx
    · exact padded_digits 2 y x hx
  have hr := padded_run hd (List.append_ne_nil_of_left_ne_nil (padded_ne_nil 2 c) _)
  rw [hl, Text.of_digits_append, padded_value, padded_value, ly, Nat.mul_comm c] at hr
  exact hr.symm

theorem east_bounds {z : Zone} (h : z.InRange) : -1440 < -z.east ∧ -z.east < 1440 := by
  cases z with
  | utc mark => simp [Zone.east]
  | apart sign hours minutes =>
    obtain ⟨hh, hm⟩ : hours ≤ 23 ∧ minutes ≤ 59 := h
    simp only [Zone.east]
    split <;> omega

theorem zoned_valid {z : Zoned} (hs : z.Spelled) (h : z.Accepted) :
    (z.point.addMinutes (-z.zone.east)).Valid := by
  have hy := DateTime.added_year h.point.toProper (east_bounds h.zone)
  have hz : z.point.date.year = z.year := rfl
  have hf : Date.firstYear = -262143 := rfl
  have hl : Date.lastYear = 262142 := rfl
  have hs := hs.year
  exact ⟨DateTime.added_proper h.point.toProper _, by omega⟩

/-- A text is read as a time with an offset just if one is written so, and it is the time by the
clocks of the zone, moved by the offset. -/
theorem with_offset_iff (s : List Char) (t : DateTime) : withOffset s = some t ↔
    ∃ z : Zoned, z.Spelled ∧ z.Accepted ∧ z.chars = s ∧
      z.point.addMinutes (-z.zone.east) = t := by
  simp only [withOffset, two_digits_then, expect_then, mark_then, fraction_then, offset_then,
    date_then, clock_then, Option.ite_none_left_eq_some, Bool.not_eq_true', Bool.not_eq_false,
    List.isEmpty_iff, Option.pure_def, Option.some.injEq]
  constructor
  · rintro ⟨century, _, hc, h1, year, _, hy, h2, _, h3, month, _, hmonth, h4, _, h5, day, _,
      hday, h6, mark, _, hmark, h7, hour, _, hhour, h8, _, h9, minute, _, hminute, h10, _, h11,
      second, _, hsecond, h12, ds, _, hd, -, h13, zone, _, hs, hr, h14, h15, hv, ht, h16⟩
    -- From the front each part gives the text that the part behind it is in.
    subst h1 h2 h3 h4 h5 h6 h7 h8 h9 h10 h11 h12 h13 h14 h15 h16
    refine ⟨⟨100 * century + year, month, day, mark, hour, minute, second, ds, zone⟩,
      ⟨by simp only; omega, hmonth, hday, hmark, hhour, hminute, hsecond, hd, hs⟩,
      ⟨DateTime.valid_clock hv ht (milliseconds_lt hd), hr⟩, ?_, rfl⟩
    simp only [Zoned.chars, ← year_chars hc hy, List.append_assoc, List.append_nil]
  · rintro ⟨z, hs, ⟨hv, hr⟩, rfl, rfl⟩
    have hc : z.year / 100 < 100 := by
      have hy := hs.year
      omega
    have hy : z.year % 100 < 100 := Nat.mod_lt _ (by decide)
    have hw := year_chars hc hy
    have he : 100 * (z.year / 100) + z.year % 100 = z.year := Nat.div_add_mod z.year 100
    have hi : 100 * ((z.year / 100 : Nat) : Int) + (z.year % 100 : Nat) = z.year := by omega
    rw [he] at hw
    refine ⟨z.year / 100, _, hc, ?_, z.year % 100, _, hy, rfl, _, rfl, z.month, _, hs.month, rfl,
      _, rfl, z.day, _, hs.day, rfl, z.mark, _, hs.mark, rfl, z.hour, _, hs.hour, rfl, _, rfl,
      z.minute, _, hs.minute, rfl, _, rfl, z.second, _, hs.second, rfl, z.fraction, _,
      hs.fraction, zone_behind z.zone hs.zone _, rfl, z.zone, [], hs.zone, hr,
      List.append_nil _, rfl, ?_, ⟨hv.hour, hv.minute, hv.second⟩, ?_⟩
    · rw [Zoned.chars, ← hw, List.append_assoc]
    · rw [hi]
      exact DateTime.valid_date hv
    · rw [hi]
      rfl

theorem with_offset_valid {s : List Char} {t : DateTime} (h : withOffset s = some t) :
    t.Valid := by
  obtain ⟨z, hs, ha, -, rfl⟩ := (with_offset_iff s t).mp h
  exact zoned_valid hs ha

end CohortQuery.Time
