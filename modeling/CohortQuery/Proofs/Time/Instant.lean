import CohortQuery.Proofs.Time.Calendar
import CohortQuery.Time.DateTime
import Mathlib.Logic.Function.Iterate

/-!
# Points in time and their order

A point is the minute in which it lies, counted through all days, with the time since that minute
began. A minute with a leap second has 61 seconds, so that the leap second lies in front of the
next minute.
-/

set_option autoImplicit false

namespace CohortQuery.Time.DateTime

/-- A point of the calendar and the clock, in whatever year. -/
structure Proper (t : DateTime) : Prop where
  date : t.date.Proper
  hour : t.hour ≤ 23
  minute : t.minute ≤ 59
  second : t.second ≤ 60
  milli : t.milli ≤ 999

/-- A point of a year for which there are dates. -/
structure Valid (t : DateTime) : Prop extends t.Proper where
  years : Date.firstYear ≤ t.date.year ∧ t.date.year ≤ Date.lastYear

/-- The number of the minute, from that with which 1970 begins. -/
def minutes (t : DateTime) : Int :=
  1440 * t.date.toDays + 60 * t.hour + t.minute

def millis (t : DateTime) : Nat :=
  1000 * t.second + t.milli

def Before (a b : DateTime) : Prop :=
  a.minutes < b.minutes ∨ a.minutes = b.minutes ∧ a.millis < b.millis

theorem proper_minutes {t : DateTime} (h : t.Proper) :
    1440 * t.date.toDays ≤ t.minutes ∧ t.minutes < 1440 * t.date.toDays + 1440 := by
  have hh := h.hour
  have hm := h.minute
  unfold minutes
  omega

theorem point_injective {t u : DateTime} (ht : t.Proper) (hu : u.Proper)
    (hm : t.minutes = u.minutes) (hs : t.second = u.second) (hl : t.milli = u.milli) : t = u := by
  have h1 := proper_minutes ht
  have h2 := proper_minutes hu
  have hd := days_injective ht.date hu.date (by omega)
  have h3 := ht.minute
  have h4 := hu.minute
  obtain ⟨date, hour, minute, second, milli⟩ := t
  obtain ⟨date', hour', minute', second', milli'⟩ := u
  simp only at hd hs hl h3 h4
  subst hd hs hl
  simp only [minutes] at hm
  obtain rfl : hour = hour' := by omega
  obtain rfl : minute = minute' := by omega
  rfl

theorem added_minutes (t : DateTime) (k : Int) : (t.addMinutes k).minutes = t.minutes + k := by
  simp only [minutes, addMinutes]
  split
  · omega
  · rw [days_of]
    omega

theorem added_proper {t : DateTime} (h : t.Proper) (k : Int) : (t.addMinutes k).Proper := by
  obtain ⟨hd, hh, hm, hs, hl⟩ := h
  refine ⟨?_, ?_, ?_, hs, hl⟩
  · simp only [addMinutes]
    split
    · exact hd
    · exact of_days_proper _
  · simp only [addMinutes]
    omega
  · simp only [addMinutes]
    omega

theorem added_year {t : DateTime} (h : t.Proper) {k : Int} (hk : -1440 < k ∧ k < 1440) :
    t.date.year - 1 ≤ (t.addMinutes k).date.year ∧
      (t.addMinutes k).date.year ≤ t.date.year + 1 := by
  have hp := added_proper h k
  have hm := added_minutes t k
  have h1 := proper_minutes h
  have h2 := proper_minutes hp
  have hb := year_near hp.date h.date (by omega)
  have hf := year_near h.date hp.date (by omega)
  omega

def nextMinute (t : DateTime) : DateTime :=
  if t.minute < 59 then { t with minute := t.minute + 1 }
  else if t.hour < 23 then { t with hour := t.hour + 1, minute := 0 }
  else { t with date := t.date.next, hour := 0, minute := 0 }

/-- From `t` one comes to `u` by so many minutes, one after the other; less than none are as many
from `u` to `t`. -/
def Apart (t u : DateTime) : Int → Prop
  | .ofNat n => nextMinute^[n] t = u
  | .negSucc n => nextMinute^[n + 1] u = t

theorem next_minute {t : DateTime} (h : t.Proper) :
    t.nextMinute.Proper ∧ t.nextMinute.minutes = t.minutes + 1 := by
  obtain ⟨hd, hh, hm, hs, hl⟩ := h
  unfold nextMinute
  by_cases hminute : t.minute < 59
  · rw [if_pos hminute]
    refine ⟨⟨hd, hh, by simp only; omega, hs, hl⟩, ?_⟩
    simp only [minutes]
    omega
  · rw [if_neg hminute]
    by_cases hhour : t.hour < 23
    · rw [if_pos hhour]
      refine ⟨⟨hd, by simp only; omega, by simp, hs, hl⟩, ?_⟩
      simp only [minutes]
      omega
    · rw [if_neg hhour]
      refine ⟨⟨next_proper hd, by simp, by simp, hs, hl⟩, ?_⟩
      simp only [minutes, next_days hd]
      omega

theorem next_minute_rest (t : DateTime) :
    t.nextMinute.second = t.second ∧ t.nextMinute.milli = t.milli := by
  unfold nextMinute
  split
  · exact ⟨rfl, rfl⟩
  · split <;> exact ⟨rfl, rfl⟩

theorem minutes_later {t : DateTime} (h : t.Proper) (n : Nat) :
    (nextMinute^[n] t).Proper ∧ (nextMinute^[n] t).minutes = t.minutes + n ∧
      (nextMinute^[n] t).second = t.second ∧ (nextMinute^[n] t).milli = t.milli := by
  induction n with
  | zero => exact ⟨h, by simp, rfl, rfl⟩
  | succ n ih =>
    obtain ⟨hp, hm, hs, hl⟩ := ih
    obtain ⟨hq, hn⟩ := next_minute hp
    obtain ⟨hs', hl'⟩ := next_minute_rest (nextMinute^[n] t)
    rw [Function.iterate_succ_apply']
    exact ⟨hq, by omega, hs'.trans hs, hl'.trans hl⟩

theorem reached_iff {t u : DateTime} (ht : t.Proper) (hu : u.Proper) (n : Nat) :
    nextMinute^[n] t = u ↔
      u.minutes = t.minutes + n ∧ u.second = t.second ∧ u.milli = t.milli := by
  obtain ⟨hp, hm, hs, hl⟩ := minutes_later ht n
  constructor
  · rintro rfl
    exact ⟨hm, hs, hl⟩
  · rintro ⟨hm', hs', hl'⟩
    exact point_injective hp hu (hm.trans hm'.symm) (hs.trans hs'.symm) (hl.trans hl'.symm)

theorem apart_iff {t u : DateTime} (ht : t.Proper) (hu : u.Proper) (k : Int) :
    t.Apart u k ↔ u.minutes = t.minutes + k ∧ u.second = t.second ∧ u.milli = t.milli := by
  cases k with
  | ofNat n => exact reached_iff ht hu n
  | negSucc n =>
    have hn : u.minutes = t.minutes + Int.negSucc n ↔ t.minutes = u.minutes + (n + 1 : Nat) := by
      omega
    rw [Apart, reached_iff hu ht, hn, eq_comm (a := t.second), eq_comm (a := t.milli)]

theorem added_apart {t : DateTime} (h : t.Proper) (k : Int) : t.Apart (t.addMinutes k) k :=
  (apart_iff h (added_proper h k) k).mpr ⟨added_minutes t k, rfl, rfl⟩

theorem apart_added {t u : DateTime} (ht : t.Proper) (hu : u.Proper) {k : Int}
    (h : t.Apart u k) : u = t.addMinutes k := by
  obtain ⟨hm, hs, hl⟩ := (apart_iff ht hu k).mp h
  exact point_injective hu (added_proper ht k) (hm.trans (added_minutes t k).symm) hs hl

theorem valid_date {t : DateTime} (h : t.Valid) : t.date.valid = true :=
  (valid_date_proper _).mpr ⟨h.years, h.date⟩

theorem valid_clock {d : Date} (hd : d.valid = true) {hour minute second milli : Nat}
    (h : hour ≤ 23 ∧ minute ≤ 59 ∧ second ≤ 60) (hm : milli ≤ 999) :
    (⟨d, hour, minute, second, milli⟩ : DateTime).Valid := by
  obtain ⟨hy, hp⟩ := (valid_date_proper d).mp hd
  exact ⟨⟨hp, h.1, h.2.1, h.2.2, hm⟩, hy⟩

def ofSecond (d : Date) (k nanos : Nat) : DateTime :=
  ⟨d, k / 3600, k / 60 % 60, k % 60 + nanos / 1000000000, nanos % 1000000000 / 1000000⟩

theorem second_proper {d : Date} (hd : d.Proper) {k nanos : Nat} (hk : k < 86400)
    (hn : nanos < 2000000000) :
    (ofSecond d k nanos).Proper ∧
      (ofSecond d k nanos).minutes = 1440 * d.toDays + (k / 60 : Nat) := by
  refine ⟨⟨hd, ?_, ?_, ?_, ?_⟩, ?_⟩ <;> simp only [ofSecond, minutes] <;> omega

theorem epoch_point (seconds : Int) (nanos : Nat) (t : DateTime) :
    ofEpoch? seconds nanos = some t ↔ nanos < 2000000000 ∧
      (1000000000 ≤ nanos → seconds % 60 = 59) ∧ t.Valid ∧ t.minutes = seconds / 60 ∧
        (t.second : Int) = seconds % 60 + nanos / 1000000000 ∧
          t.milli = nanos % 1000000000 / 1000000 := by
  obtain ⟨k, hk⟩ : ∃ k, k = (seconds % 86400).toNat := ⟨_, rfl⟩
  have given : ofEpoch? seconds nanos = some t ↔ (nanos < 2000000000 ∧
      (1000000000 ≤ nanos → k % 60 = 59) ∧ (Date.ofDays (seconds / 86400)).valid = true) ∧
        ofSecond (Date.ofDays (seconds / 86400)) k nanos = t := by
    simp only [ofEpoch?, ← hk, ofSecond, Option.ite_none_left_eq_some, Option.some.injEq, not_or,
      not_and, not_le, not_not, Bool.not_eq_true', Bool.not_eq_false, ne_eq]
  have hd := of_days_proper (seconds / 86400)
  rw [given]
  constructor
  · rintro ⟨⟨hn, hl, hv⟩, rfl⟩
    obtain ⟨hp, hm⟩ := second_proper hd (by omega : k < 86400) hn
    rw [days_of] at hm
    refine ⟨hn, by omega, ⟨hp, ((valid_date_proper _).mp hv).1⟩, by omega, ?_, rfl⟩
    simp only [ofSecond]
    omega
  · rintro ⟨hn, hl, hv, hm, hs, hf⟩
    obtain ⟨hp, hu⟩ := second_proper hd (by omega : k < 86400) hn
    rw [days_of] at hu
    have hb := proper_minutes hv.toProper
    have hdate : Date.ofDays (seconds / 86400) = t.date := by
      rw [← of_days hv.date]
      exact congrArg Date.ofDays (by omega)
    refine ⟨⟨hn, by omega, hdate ▸ valid_date hv⟩, ?_⟩
    refine point_injective hp hv.toProper (by omega) ?_ hf.symm
    simp only [ofSecond]
    omega

theorem valid_iff_epoch (t : DateTime) :
    t.Valid ↔ ∃ seconds nanos, ofEpoch? seconds nanos = some t := by
  constructor
  · intro h
    have hs := h.second
    have hl := h.milli
    by_cases leap : t.second = 60
    · refine ⟨60 * t.minutes + 59, 1000000 * t.milli + 1000000000, ?_⟩
      rw [epoch_point]
      exact ⟨by omega, fun _ => by omega, h, by omega, by omega, by omega⟩
    · refine ⟨60 * t.minutes + t.second, 1000000 * t.milli, ?_⟩
      rw [epoch_point]
      exact ⟨by omega, fun _ => by omega, h, by omega, by omega, by omega⟩
  · rintro ⟨seconds, nanos, h⟩
    exact ((epoch_point _ _ _).mp h).2.2.1

end CohortQuery.Time.DateTime
