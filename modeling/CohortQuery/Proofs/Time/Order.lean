import CohortQuery.Proofs.Time.StoreForm

/-!
# The order of store forms

In one year, and in the years of four digits, the store forms are ordered as texts as their points
are in time. In other years the text of the year decides, with its sign.
-/

set_option autoImplicit false

namespace CohortQuery.Time

open CohortQuery.Text (paddedNumeral padded_digits padded_length padded_order append_order)

def DateTime.behindYear (t : DateTime) : List Char :=
  (paddedNumeral 2 t.date.month).toList ++ '-' :: ((paddedNumeral 2 t.date.day).toList ++
    ' ' :: ((paddedNumeral 2 t.hour).toList ++ ':' :: ((paddedNumeral 2 t.minute).toList ++
      ':' :: ((paddedNumeral 2 t.second).toList ++
        '.' :: ((paddedNumeral 3 t.milli).toList ++ [])))))

theorem render_parts (t : DateTime) :
    t.render.toList = (renderYear t.date.year).toList ++ '-' :: t.behindYear := by
  simp [DateTime.render, DateTime.behindYear, Date.render, clock_chars]

theorem cons_order (c : Char) (us vs : List Char) : c :: us < c :: vs ↔ us < vs := by
  rw [List.cons_lt_cons_iff]
  simp

theorem proper_bounds {t : DateTime} (h : t.Proper) : t.date.month < 100 ∧ t.date.day < 100 ∧
    t.hour < 100 ∧ t.minute < 100 ∧ t.second < 100 ∧ t.milli < 1000 := by
  have hm := h.date.month
  have hd := h.date.day
  have hl := month_length t.date.year t.date.month
  have hh := h.hour
  have hi := h.minute
  have hs := h.second
  have hf := h.milli
  omega

theorem behind_year_order {t u : DateTime} (ht : t.Proper) (hu : u.Proper)
    (hy : t.date.year = u.date.year) : t.behindYear < u.behindYear ↔ t.Before u := by
  obtain ⟨t1, t2, t3, t4, t5, t6⟩ := proper_bounds ht
  obtain ⟨u1, u2, u3, u4, u5, u6⟩ := proper_bounds hu
  -- Each part has its width, so that the first parts that differ decide.
  have hl : t.behindYear < u.behindYear ↔ t.date.month < u.date.month ∨
      t.date.month = u.date.month ∧ (t.date.day < u.date.day ∨ t.date.day = u.date.day ∧
        (t.hour < u.hour ∨ t.hour = u.hour ∧ (t.minute < u.minute ∨ t.minute = u.minute ∧
          (t.second < u.second ∨ t.second = u.second ∧ t.milli < u.milli)))) := by
    simp only [DateTime.behindYear, cons_order, padded_order (by decide : 0 < 2) t1 u1,
      padded_order (by decide : 0 < 2) t2 u2, padded_order (by decide : 0 < 2) t3 u3,
      padded_order (by decide : 0 < 2) t4 u4, padded_order (by decide : 0 < 2) t5 u5,
      padded_order (by decide : 0 < 3) t6 u6, List.lt_irrefl, and_false, or_false]
  have he := days_order ht.date hu.date
  have hr := days_order hu.date ht.date
  have hh := And.intro ht.hour hu.hour
  have hm := And.intro ht.minute hu.minute
  unfold Date.Earlier at he hr
  rw [hl]
  unfold DateTime.Before DateTime.minutes DateTime.millis
  omega

theorem same_year_order {t u : DateTime} (ht : t.Proper) (hu : u.Proper)
    (hy : t.date.year = u.date.year) : t.render < u.render ↔ t.Before u := by
  have hs : t.render < u.render ↔ t.render.toList < u.render.toList := Iff.rfl
  rw [hs, render_parts, render_parts, hy, append_order rfl, cons_order,
    behind_year_order ht hu hy]
  simp only [List.lt_irrefl, false_or, true_and]

theorem year_order {t u : DateTime} (ht : t.Proper) (hu : u.Proper)
    (h : t.date.year ≠ u.date.year) : t.Before u ↔ t.date.year < u.date.year := by
  have he := days_order ht.date hu.date
  have hr := days_order hu.date ht.date
  have h1 := DateTime.proper_minutes ht
  have h2 := DateTime.proper_minutes hu
  unfold Date.Earlier at he hr
  unfold DateTime.Before
  omega

theorem four_digits_order {t u : DateTime} (ht : t.Proper) (hu : u.Proper)
    (hy : 0 ≤ t.date.year ∧ t.date.year ≤ 9999) (hz : 0 ≤ u.date.year ∧ u.date.year ≤ 9999) :
    t.render < u.render ↔ t.Before u := by
  by_cases h : t.date.year = u.date.year
  · exact same_year_order ht hu h
  · have hs : t.render < u.render ↔ t.render.toList < u.render.toList := Iff.rfl
    rw [hs, render_parts, render_parts, year_unsigned hy, year_unsigned hz,
      padded_order (by decide) (by omega) (by omega), year_order ht hu h]
    omega

theorem front_order {xs ys : List Char} (hx : ¬xs <+: ys) (hy : ¬ys <+: xs) (us vs : List Char) :
    xs ++ us < ys ++ vs ↔ xs < ys := by
  induction xs generalizing ys with
  | nil => exact absurd List.nil_prefix hx
  | cons x xs ih =>
    cases ys with
    | nil => exact absurd List.nil_prefix hy
    | cons y ys =>
      rw [List.cons_append, List.cons_append, List.cons_lt_cons_iff, List.cons_lt_cons_iff]
      refine or_congr_right (and_congr_right fun h => ih ?_ ?_)
      · exact fun hp => hx (h ▸ List.cons_prefix_cons.mpr ⟨rfl, hp⟩)
      · exact fun hp => hy (h ▸ List.cons_prefix_cons.mpr ⟨rfl, hp⟩)

theorem year_text_split {y z : Int}
    (h : (renderYear y).toList ++ ['-'] <+: (renderYear z).toList ++ ['-']) : y = z := by
  obtain ⟨r, hr⟩ := h
  have hz := year_written z []
  rw [← hr, List.append_assoc, List.singleton_append, year_written] at hz
  exact (Prod.mk.inj (Option.some.inj hz)).1

/-- Of different years the texts decide, together with the mark behind them. -/
theorem year_text_order {t u : DateTime} (h : t.date.year ≠ u.date.year) :
    t.render < u.render ↔ renderYear t.date.year ++ "-" < renderYear u.date.year ++ "-" := by
  have hs (a b : String) : a < b ↔ a.toList < b.toList := Iff.rfl
  have hm : "-".toList = ['-'] := rfl
  have hf (v : DateTime) : v.render.toList =
      ((renderYear v.date.year).toList ++ ['-']) ++ v.behindYear := by
    rw [render_parts, List.append_cons]
  rw [hs, hs, hf, hf, String.toList_append, String.toList_append, hm]
  exact front_order (fun hp => h (year_text_split hp)) (fun hp => h (year_text_split hp).symm) _ _

end CohortQuery.Time
