import CohortQuery.Time.Date
import Mathlib.Order.Monotone.Basic

/-!
# The calendar

The numbers of days count on from one day to the next one, as the lengths of the months and the
leap years have it. So they are in the order of the dates, and each number is that of one date.
-/

set_option autoImplicit false

namespace CohortQuery.Time

theorem leap_iff (year : Int) :
    isLeap year = true ↔ year % 4 = 0 ∧ (year % 100 ≠ 0 ∨ year % 400 = 0) := by
  simp [isLeap]

structure Date.Proper (d : Date) : Prop where
  month : 1 ≤ d.month ∧ d.month ≤ 12
  day : 1 ≤ d.day ∧ d.day ≤ daysInMonth d.year d.month

theorem valid_date_proper (d : Date) :
    d.valid = true ↔ (Date.firstYear ≤ d.year ∧ d.year ≤ Date.lastYear) ∧ d.Proper := by
  simp only [Date.valid, Bool.and_eq_true, decide_eq_true_eq]
  constructor
  · rintro ⟨⟨⟨⟨⟨h1, h2⟩, h3⟩, h4⟩, h5⟩, h6⟩
    exact ⟨⟨h1, h2⟩, ⟨h3, h4⟩, h5, h6⟩
  · rintro ⟨⟨h1, h2⟩, ⟨h3, h4⟩, h5, h6⟩
    exact ⟨⟨⟨⟨⟨h1, h2⟩, h3⟩, h4⟩, h5⟩, h6⟩

theorem month_length (year : Int) (month : Nat) : daysInMonth year month ≤ 31 := by
  unfold daysInMonth
  split
  · split <;> omega
  · split <;> omega

def firstDay (year : Int) : Int :=
  365 * (year - 1) + (year - 1) / 4 - (year - 1) / 100 + (year - 1) / 400 - 719162

def daysBefore (year : Int) : Nat → Nat
  | 0 => 0
  | 1 => 0
  | m + 2 => daysBefore year (m + 1) + daysInMonth year (m + 1)

theorem days_before_next (year : Int) {month : Nat} (h : 1 ≤ month) :
    daysBefore year (month + 1) = daysBefore year month + daysInMonth year month := by
  obtain ⟨m, rfl⟩ := Nat.exists_eq_add_of_le' h
  rfl

theorem days_before_mono (year : Int) : Monotone (daysBefore year) := by
  refine monotone_nat_of_le_succ fun m => ?_
  cases m with
  | zero => exact Nat.le_refl _
  | succ m => exact Nat.le_add_right _ _

theorem days_before_leap {year other : Int} (h : isLeap year = isLeap other) (month : Nat) :
    daysBefore year month = daysBefore other month := by
  have hm (m : Nat) : daysInMonth year m = daysInMonth other m := by
    simp only [daysInMonth, h]
  induction month with
  | zero => rfl
  | succ m ih =>
    cases m with
    | zero => rfl
    | succ m => rw [daysBefore, daysBefore, ih, hm]

theorem months_counted (year : Int) {month : Nat} (h : 1 ≤ month ∧ month ≤ 12) :
    (daysBefore year month : Int) = (153 * ((month + 9) % 12) + 2) / 5 +
      if month ≤ 2 then -306 else if isLeap year then 60 else 59 := by
  have hm : month ∈ List.range' 1 12 := by
    rw [List.mem_range'_1]
    omega
  clear h
  cases hy : isLeap year with
  | true =>
    rw [days_before_leap (hy.trans (by decide : true = isLeap 4))]
    exact (by decide : ∀ m ∈ List.range' 1 12, (daysBefore 4 m : Int) =
      (153 * ((m + 9) % 12) + 2) / 5 + if m ≤ 2 then -306 else 60) month hm
  | false =>
    rw [days_before_leap (hy.trans (by decide : false = isLeap 1))]
    exact (by decide : ∀ m ∈ List.range' 1 12, (daysBefore 1 m : Int) =
      (153 * ((m + 9) % 12) + 2) / 5 + if m ≤ 2 then -306 else 59) month hm

theorem year_days (year : Int) : daysBefore year 13 = if isLeap year then 366 else 365 := by
  cases hy : isLeap year with
  | true => exact days_before_leap (hy.trans (by decide : true = isLeap 4)) 13
  | false => exact days_before_leap (hy.trans (by decide : false = isLeap 1)) 13

theorem leap_days (year : Int) : year / 4 - year / 100 + year / 400 =
    (year - 1) / 4 - (year - 1) / 100 + (year - 1) / 400 + if isLeap year then 1 else 0 := by
  have h := leap_iff year
  by_cases hl : isLeap year
  · have hy := h.mp hl
    rw [if_pos hl]
    omega
  · have hy := mt h.mpr hl
    rw [if_neg hl]
    omega

theorem first_day_next (year : Int) :
    firstDay (year + 1) = firstDay year + daysBefore year 13 := by
  have h := leap_days year
  unfold firstDay
  rw [year_days, Int.add_sub_cancel]
  by_cases hy : isLeap year
  · rw [if_pos hy] at h ⊢
    omega
  · rw [if_neg hy] at h ⊢
    omega

theorem first_day_mono {year other : Int} (h : year ≤ other) :
    firstDay year + 365 * (other - year) ≤ firstDay other := by
  unfold firstDay
  omega

/-- The number of a date by the years, months and days in front of it. -/
theorem days_counted {d : Date} (h : 1 ≤ d.month ∧ d.month ≤ 12) :
    d.toDays = firstDay d.year + daysBefore d.year d.month + d.day - 1 := by
  have hm := months_counted d.year h
  have hl := leap_days d.year
  simp only [Date.toDays, firstDay]
  by_cases hs : d.month ≤ 2
  · rw [if_pos hs] at hm ⊢
    omega
  · rw [if_neg hs] at hm ⊢
    by_cases hy : isLeap d.year
    · rw [if_pos hy] at hm hl
      omega
    · rw [if_neg hy] at hm hl
      omega

def Date.next (d : Date) : Date :=
  if d.day < daysInMonth d.year d.month then { d with day := d.day + 1 }
  else if d.month < 12 then ⟨d.year, d.month + 1, 1⟩
  else ⟨d.year + 1, 1, 1⟩

theorem month_nonempty (year : Int) (month : Nat) : 1 ≤ daysInMonth year month := by
  unfold daysInMonth
  split
  · split <;> omega
  · split <;> omega

theorem next_proper {d : Date} (h : d.Proper) : d.next.Proper := by
  obtain ⟨hm, hd⟩ := h
  unfold Date.next
  by_cases hday : d.day < daysInMonth d.year d.month
  · rw [if_pos hday]
    exact ⟨hm, by simp only; omega⟩
  · rw [if_neg hday]
    by_cases hmonth : d.month < 12
    · rw [if_pos hmonth]
      exact ⟨by simp only; omega, Nat.le_refl 1, month_nonempty _ _⟩
    · rw [if_neg hmonth]
      exact ⟨by simp, Nat.le_refl 1, month_nonempty _ _⟩

theorem next_days {d : Date} (h : d.Proper) : d.next.toDays = d.toDays + 1 := by
  rw [days_counted (next_proper h).month, days_counted h.month]
  obtain ⟨hm, hd⟩ := h
  have hb := days_before_next d.year hm.1
  unfold Date.next
  by_cases hday : d.day < daysInMonth d.year d.month
  · rw [if_pos hday]
    simp only
    omega
  · rw [if_neg hday]
    by_cases hmonth : d.month < 12
    · rw [if_pos hmonth]
      simp only
      omega
    · obtain h12 : d.month = 12 := by omega
      have h13 : daysBefore d.year 13 = daysBefore d.year 12 + daysInMonth d.year 12 := rfl
      have h1 : daysBefore (d.year + 1) 1 = 0 := rfl
      rw [h12] at hday hd
      rw [if_neg hmonth, h12]
      simp only [first_day_next, h13, h1]
      omega

def Date.Earlier (a b : Date) : Prop :=
  a.year < b.year ∨ a.year = b.year ∧
    (a.month < b.month ∨ a.month = b.month ∧ a.day < b.day)

theorem days_within {d : Date} (h : d.Proper) :
    firstDay d.year + daysBefore d.year d.month ≤ d.toDays ∧
      d.toDays < firstDay d.year + daysBefore d.year (d.month + 1) := by
  have hd := h.day
  rw [days_counted h.month, days_before_next _ h.month.1]
  omega

theorem days_within_year {d : Date} (h : d.Proper) :
    firstDay d.year ≤ d.toDays ∧ d.toDays < firstDay (d.year + 1) := by
  have hw := days_within h
  have hm : daysBefore d.year (d.month + 1) ≤ daysBefore d.year 13 :=
    days_before_mono _ (Nat.succ_le_succ h.month.2)
  rw [first_day_next]
  omega

theorem earlier_days {a b : Date} (ha : a.Proper) (hb : b.Proper) (h : a.Earlier b) :
    a.toDays < b.toDays := by
  rcases h with h | ⟨hy, h | ⟨hm, h⟩⟩
  · have hw := (days_within_year ha).2
    have hv := (days_within_year hb).1
    have hf := first_day_mono (show a.year + 1 ≤ b.year from h)
    omega
  · have hw := (days_within ha).2
    have hv := (days_within hb).1
    have hm : daysBefore a.year (a.month + 1) ≤ daysBefore a.year b.month := days_before_mono _ h
    rw [← hy] at hv
    omega
  · rw [days_counted ha.month, days_counted hb.month, hy, hm]
    omega

theorem earlier_cases (a b : Date) : a.Earlier b ∨ a = b ∨ b.Earlier a := by
  have he : a = b ↔ a.year = b.year ∧ a.month = b.month ∧ a.day = b.day := by
    cases a; cases b; simp
  rw [he]
  unfold Date.Earlier
  omega

theorem days_order {a b : Date} (ha : a.Proper) (hb : b.Proper) :
    a.toDays < b.toDays ↔ a.Earlier b := by
  refine ⟨fun h => ?_, earlier_days ha hb⟩
  rcases earlier_cases a b with hs | rfl | hs
  · exact hs
  · omega
  · have := earlier_days hb ha hs
    omega

theorem days_injective {a b : Date} (ha : a.Proper) (hb : b.Proper) (h : a.toDays = b.toDays) :
    a = b := by
  rcases earlier_cases a b with hs | hs | hs
  · have := earlier_days ha hb hs
    omega
  · exact hs
  · have := earlier_days hb ha hs
    omega

theorem year_near {a b : Date} (ha : a.Proper) (hb : b.Proper) (h : b.toDays ≤ a.toDays + 1) :
    b.year ≤ a.year + 1 := by
  have hw := (days_within_year ha).2
  have hv := (days_within_year hb).1
  by_contra hy
  have hf := first_day_mono (show a.year + 1 ≤ b.year by omega)
  omega

/-- The day `n` of 400 years is the day `k` of year `r` of the four years `q` of century `c`. Only
the last of four years may have a day 365, its leap day. -/
structure EraDay (n c q r k : Int) : Prop where
  century : 0 ≤ c ∧ c ≤ 3
  cycle : 0 ≤ q ∧ q ≤ 24
  year : 0 ≤ r ∧ r ≤ 3
  day : 0 ≤ k ∧ k ≤ 365
  leap : k = 365 → r = 3 ∧ (q < 24 ∨ c = 3)
  number : n = 36524 * c + 1461 * q + 365 * r + k

theorem era_day (n : Int) (h : 0 ≤ n ∧ n < 146097) : ∃ c q r k, EraDay n c q r k := by
  -- The last century and the last year may be a day longer than the other ones.
  obtain ⟨c, hc⟩ : ∃ c, c = min 3 (n / 36524) := ⟨_, rfl⟩
  obtain ⟨q, hq⟩ : ∃ q, q = (n - 36524 * c) / 1461 := ⟨_, rfl⟩
  obtain ⟨r, hr⟩ : ∃ r, r = min 3 ((n - 36524 * c - 1461 * q) / 365) := ⟨_, rfl⟩
  refine ⟨c, q, r, n - 36524 * c - 1461 * q - 365 * r, ?_, ?_, ?_, ?_, ?_, ?_⟩ <;> omega

/-- The quotient by which the year of a day is found. -/
theorem era_year {n c q r k : Int} (h : EraDay n c q r k) :
    (n - n / 1460 + n / 36524 - n / 146096) / 365 = 100 * c + 4 * q + r := by
  obtain ⟨hc, hq, hr, hk, hl, hn⟩ := h
  have rest : 1461 * q + 365 * r + k < 36524 ∨ c = 3 ∧ 1461 * q + 365 * r + k = 36524 := by
    omega
  have centuries : n / 36524 - n / 146096 = c := by
    rcases rest with rest | ⟨rfl, rest⟩
    · have h1 : n / 36524 = c := by omega
      have h4 : n / 146096 = 0 := by omega
      omega
    · omega
  have cycles : n / 1460 = 25 * c + q ∨ n / 1460 = 25 * c + q + 1 ∧ 1 ≤ k := by omega
  have last : k = 365 → n / 1460 = 25 * c + q + 1 := by omega
  omega

theorem era_rest {n c q r k : Int} (h : EraDay n c q r k) :
    n - (365 * (100 * c + 4 * q + r) + (100 * c + 4 * q + r) / 4 -
      (100 * c + 4 * q + r) / 100) = k := by
  obtain ⟨hc, hq, hr, hk, hl, rfl⟩ := h
  omega

/-- The date of the number `n` lies `m` months and `k` days behind the first of March of the
year `y`. -/
structure SinceMarch (d : Date) (n y k m : Int) : Prop where
  days : 0 ≤ k ∧ k ≤ 365
  leap : k = 365 → isLeap (y + 1) = true
  months : m = (5 * k + 2) / 153
  number : n = 365 * y + y / 4 - y / 100 + y / 400 + k - 719468
  year : d.year = if m < 10 then y else y + 1
  month : d.month = if m < 10 then m + 3 else m - 9
  day : d.day = k - (153 * m + 2) / 5 + 1

theorem since_march (n : Int) : ∃ y k m, SinceMarch (Date.ofDays n) n y k m := by
  obtain ⟨c, q, r, k, h⟩ := era_day ((n + 719468) % 146097) (by omega)
  obtain ⟨era, he⟩ : ∃ era, era = (n + 719468) / 146097 := ⟨_, rfl⟩
  obtain ⟨m, hm⟩ : ∃ m, m = (5 * k + 2) / 153 := ⟨_, rfl⟩
  have hd : Date.ofDays n = ⟨100 * c + 4 * q + r + 400 * era +
      (if (if m < 10 then m + 3 else m - 9) ≤ 2 then 1 else 0),
      (if m < 10 then m + 3 else m - 9).toNat, (k - (153 * m + 2) / 5 + 1).toNat⟩ := by
    unfold Date.ofDays
    simp only [era_year h, era_rest h, ← he, ← hm]
  obtain ⟨hc, hq, hr, hk, hl, hn⟩ := h
  have h4 : (100 * c + 4 * q + r + 400 * era) / 4 = 25 * c + q + 100 * era := by omega
  have h100 : (100 * c + 4 * q + r + 400 * era) / 100 = c + 4 * era := by omega
  have h400 : (100 * c + 4 * q + r + 400 * era) / 400 = era := by omega
  refine ⟨100 * c + 4 * q + r + 400 * era, k, m, hk, ?_, hm, by omega, ?_, ?_, ?_⟩
  · intro h
    rw [leap_iff]
    omega
  all_goals
    rw [hd]
    simp only
    omega

theorem days_of (n : Int) : (Date.ofDays n).toDays = n := by
  obtain ⟨y, k, m, h⟩ := since_march n
  generalize Date.ofDays n = d at h
  obtain ⟨hk, -, hm, hn, hyear, hmonth, hday⟩ := h
  simp only [Date.toDays]
  by_cases h : m < 10
  · rw [if_pos h] at hyear hmonth
    rw [hyear, hday, if_neg (by omega), show ((d.month : Int) + 9) % 12 = m by omega]
    omega
  · rw [if_neg h] at hyear hmonth
    rw [hyear, hday, if_pos (by omega), show ((d.month : Int) + 9) % 12 = m by omega,
      Int.add_sub_cancel]
    omega

theorem of_days_proper (n : Int) : (Date.ofDays n).Proper := by
  obtain ⟨y, k, m, h⟩ := since_march n
  generalize Date.ofDays n = d at h
  obtain ⟨hk, hl, hm, -, hyear, hmonth, hday⟩ := h
  refine ⟨by omega, ?_⟩
  have hm : 0 ≤ m ∧ m ≤ 11 := by omega
  unfold daysInMonth
  by_cases hf : d.month = 2
  · rw [if_pos hf, hyear, if_neg (show ¬ m < 10 by omega)]
    by_cases hy : isLeap (y + 1)
    · rw [if_pos hy]
      omega
    · have hn : k ≠ 365 := mt hl hy
      rw [if_neg hy]
      omega
  · rw [if_neg hf]
    split <;> omega

theorem of_days {d : Date} (h : d.Proper) : Date.ofDays d.toDays = d :=
  days_injective (of_days_proper _) h (days_of _)

end CohortQuery.Time
