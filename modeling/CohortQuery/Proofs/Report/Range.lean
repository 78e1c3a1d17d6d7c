import CohortQuery.Proofs.Report.Listing
import CohortQuery.Proofs.Time.Order

/-!
# Ranges of time

A report is refused for its range just if the store form of the upper bound is the earlier text.
A range of one timestamp is never refused, and for a bare date it is the whole day. In one year,
and in the years of four digits, a range is refused just if it is inverted in time; in other years
the text of the year decides.
-/

set_option autoImplicit false

namespace CohortQuery.Report

open Time (DateTime Stamp Date startText endText withOffset withoutOffset bareDate renderYear)

theorem read_trim (s : String) : Stamp.read (Text.trim s) = Stamp.read s := by
  simp only [Stamp.read, Text.trim, String.toList_ofList, Text.trim_trim]

theorem read_bound_given {s : String} {p : Stamp} (h : Stamp.read s = some p) :
    Filter.nonBlank (some s) = some (Text.trim s) := by
  have hn : (Text.trim s).isEmpty = false := by
    by_contra he
    rw [Bool.not_eq_false, String.isEmpty_iff] at he
    have hz : Stamp.read "" = none := by decide
    rw [← read_trim, he, hz] at h
    cases h
  simp [Filter.nonBlank, hn]

section

variable {f : Filter} {a b : String} {p q : Stamp} (ha : Filter.nonBlank f.lower = some a)
  (hb : Filter.nonBlank f.upper = some b) (hp : Stamp.read a = some p)
  (hq : Stamp.read b = some q)

include ha hb hp hq

theorem range_read : f.range =
    if q.last.render < p.first.render then .error (.invalidValue "from" .rangeInverted)
    else .ok (some p.first.render, some q.last.render) := by
  have hl : Filter.bound "from" f.lower startText = .ok (some p.first.render) := by
    simp only [Filter.bound, ha, startText, hp, Option.map_some]
  have hu : Filter.bound "to" f.upper endText = .ok (some q.last.render) := by
    simp only [Filter.bound, hb, endText, hq, Option.map_some]
  simp only [Filter.range, hl, hu, bind, Except.bind, pure, Except.pure]

end

section

variable {projectId : String} {u : Uuid} (hu : Uuid.read (Text.trim projectId) = some u)
  (kind : Kind) {f : Filter}

include hu

theorem query_given {bounds : Option String × Option String} (hr : f.range = .ok bounds) :
    ∃ q, query projectId kind f = .ok q ∧ q.params.Has (values kind f bounds) := by
  have hb := (project_ok _ _).mpr ⟨u, hu, rfl⟩
  exact ⟨_, (query_ok _ _ _ _).mpr ⟨_, bounds, hb, hr, rfl⟩,
    (report_params hb hu kind f bounds).2⟩

theorem query_refused {e : CompileError} (hr : f.range = .error e) :
    query projectId kind f = .error e := by
  have hb := (project_ok _ _).mpr ⟨u, hu, rfl⟩
  have hf (b : Bindings) : f.compile.outcome b = (.error e, b) := by
    rw [Filter.compile, hr, Binder.outcome_bind]
    rfl
  have hs (b : Bindings) : (compileSelect kind f).outcome b = (.error e, b) := by
    rw [compileSelect, Binder.outcome_bind, hf]
  have ho (b : Bindings) : finishSelect (compileSelect kind f) b = .error e := by
    have h := hs b
    unfold Binder.outcome at h
    rw [finishSelect, h]
  rw [query, hb]
  exact ho _

end

theorem query_cases (projectId : String) (f : Filter) :
    (∃ e, ∀ kind, query projectId kind f = .error e) ∨
      ∃ u bounds, Uuid.read (Text.trim projectId) = some u ∧ f.range = .ok bounds := by
  cases hu : Uuid.read (Text.trim projectId) with
  | none =>
    have hb : Bindings.forProject projectId = .error (.invalidProjectId projectId) := by
      simp only [Bindings.forProject, hu]
    exact .inl ⟨_, fun kind => by rw [query, hb]; rfl⟩
  | some u =>
    cases hr : f.range with
    | error e => exact .inl ⟨e, fun kind => query_refused hu kind hr⟩
    | ok bounds => exact .inr ⟨u, bounds, rfl, rfl⟩

/-- As a lower bound and as an upper one a text is a timestamp or is none. Both readings are the
same but for what is a bare date and no other layout: it stands for its day. A report with the text
for both bounds is not refused, and binds the two readings. -/
theorem day_bracketed :
    (∀ s : String, let cs := Text.trimChars s.toList
      startText s = none ∧ endText s = none ∨
      (∃ t : DateTime, (withOffset cs = some t ∨ withoutOffset cs = some t) ∧
        startText s = some t.render ∧ endText s = some t.render) ∨
      ∃ d : Date, withOffset cs = none ∧ withoutOffset cs = none ∧ bareDate cs = some d ∧
        startText s = some (d.render ++ " 00:00:00.000") ∧
        endText s = some (d.render ++ " 23:59:59.999")) ∧
    (∀ (projectId : String) (u : Uuid) (kind : Kind) (f : Filter) (s : String),
      Uuid.read (Text.trim projectId) = some u → (startText s).isSome → f.lower = some s →
      f.upper = some s → ∃ q lower upper, query projectId kind f = .ok q ∧
        startText s = some lower ∧ endText s = some upper ∧
        q.params.get? "from" = some (.time lower) ∧ q.params.get? "to" = some (.time upper)) := by
  constructor
  · intro s cs
    cases h : Stamp.read s with
    | none => exact .inl (by simp only [startText, endText, h, Option.map_none, and_self])
    | some p =>
      simp only [startText, endText, h, Option.map_some]
      cases p with
      | point t => exact .inr (.inl ⟨t, (Stamp.read_point s t).mp h, rfl, rfl⟩)
      | day d =>
        obtain ⟨h1, h2, h3⟩ := (Stamp.read_day s d).mp h
        obtain ⟨hf, hl⟩ := Time.day_render d
        exact .inr (.inr ⟨d, h1, h2, h3, congrArg some hf, congrArg some hl⟩)
  · intro projectId u kind f s hu hs hf ht
    simp only [startText, Option.isSome_map, Option.isSome_iff_exists] at hs
    obtain ⟨p, hp⟩ := hs
    obtain ⟨hv, hw⟩ := Stamp.read_valid hp
    have hb := read_bound_given hp
    have hy : p.last.date.year = p.first.date.year := by cases p <;> rfl
    have hr := range_read (hf ▸ hb) (ht ▸ hb) ((read_trim s).trans hp) ((read_trim s).trans hp)
    -- The two readings have one year, so that their texts are in the order of time.
    rw [if_neg (mt (Time.same_year_order hw.toProper hv.toProper hy).mp
      (Time.last_not_before p))] at hr
    obtain ⟨q, hq, hh⟩ := query_given hu kind hr
    have hm : ("from", .time p.first.render) ∈
          values kind f (some p.first.render, some p.last.render) ∧
        ("to", .time p.last.render) ∈ values kind f (some p.first.render, some p.last.render) := by
      simp [values, Filter.values, Filter.optionalValues]
    refine ⟨q, _, _, hq, ?_, ?_, hh _ hm.1, hh _ hm.2⟩
    · rw [startText, hp, Option.map_some]
    · rw [endText, hp, Option.map_some]

theorem project_read : ∃ u,
    Uuid.read (Text.trim "6f1c2b8e-3d4a-4e5f-8a9b-0c1d2e3f4a5b") = some u :=
  Option.isSome_iff_exists.mp (Uuid.grouped_known rfl)

theorem leap_day_bracketed : ∃ (u : Uuid) (f : Filter),
    Uuid.read (Text.trim "6f1c2b8e-3d4a-4e5f-8a9b-0c1d2e3f4a5b") = some u ∧
    (startText " -0004-2-29").isSome ∧ f.lower = some " -0004-2-29" ∧ f.upper = some " -0004-2-29" ∧
    ∀ kind, ∃ q, query "6f1c2b8e-3d4a-4e5f-8a9b-0c1d2e3f4a5b" kind f = .ok q ∧
      q.params.get? "from" = some (.time "-0004-02-29 00:00:00.000") ∧
      q.params.get? "to" = some (.time "-0004-02-29 23:59:59.999") := by
  obtain ⟨u, hu⟩ := project_read
  have hf : startText " -0004-2-29" = some "-0004-02-29 00:00:00.000" := by decide
  have hl : endText " -0004-2-29" = some "-0004-02-29 23:59:59.999" := by decide
  have hs : (startText " -0004-2-29").isSome := by rw [hf]; rfl
  let f : Filter := ⟨none, none, some " -0004-2-29", some " -0004-2-29"⟩
  refine ⟨u, f, hu, hs, rfl, rfl, fun kind => ?_⟩
  obtain ⟨q, lower, upper, hq, h1, h2, h3, h4⟩ := day_bracketed.2 _ u kind f _ hu hs rfl rfl
  obtain rfl := Option.some.inj (h1.symm.trans hf)
  obtain rfl := Option.some.inj (h2.symm.trans hl)
  exact ⟨q, hq, h3, h4⟩

/-- Where both years are the same or have four digits a report is refused for its range just if
the range is inverted in time. Different years are compared by their texts, with the mark behind
them. For no other reason is a report refused whose bounds are timestamps. -/
theorem range_refused (projectId : String) (u : Uuid) (kind : Kind) (f : Filter) (a b : String)
    (p q : Stamp) (hu : Uuid.read (Text.trim projectId) = some u)
    (ha : Filter.nonBlank f.lower = some a) (hb : Filter.nonBlank f.upper = some b)
    (hp : Stamp.read a = some p) (hq : Stamp.read b = some q) :
    let y := p.first.date.year
    let z := q.last.date.year
    let refused := query projectId kind f = .error (.invalidValue "from" .rangeInverted)
    (y = z ∨ (0 ≤ y ∧ y ≤ 9999) ∧ 0 ≤ z ∧ z ≤ 9999 → (refused ↔ q.last.Before p.first)) ∧
    (y ≠ z → (refused ↔ renderYear z ++ "-" < renderYear y ++ "-")) ∧
    (refused ∨ ∃ r, query projectId kind f = .ok r) := by
  intro y z refused
  have hr := range_read ha hb hp hq
  have hv := (Stamp.read_valid hp).1.toProper
  have hw := (Stamp.read_valid hq).2.toProper
  have ho : (refused ↔ q.last.render < p.first.render) ∧
      (refused ∨ ∃ r, query projectId kind f = .ok r) := by
    by_cases h : q.last.render < p.first.render
    · rw [if_pos h] at hr
      have he := query_refused hu kind hr
      exact ⟨iff_of_true he h, .inl he⟩
    · rw [if_neg h] at hr
      obtain ⟨r, hok, -⟩ := query_given hu kind hr
      refine ⟨iff_of_false (fun he => ?_) h, .inr ⟨r, hok⟩⟩
      cases hok.symm.trans he
  refine ⟨fun h => ho.1.trans ?_, fun h => ho.1.trans ?_, ho.2⟩
  · rcases h with h | ⟨hy, hz⟩
    · exact Time.same_year_order hw hv h.symm
    · exact Time.four_digits_order hw hv hz hy
  · exact Time.year_text_order (Ne.symm h)

theorem february_refused : ∃ (u : Uuid) (f g : Filter) (a b c d : String) (p q r s : Stamp),
    Uuid.read (Text.trim "6f1c2b8e-3d4a-4e5f-8a9b-0c1d2e3f4a5b") = some u ∧
    Filter.nonBlank f.lower = some a ∧ Filter.nonBlank f.upper = some b ∧
    Stamp.read a = some p ∧ Stamp.read b = some q ∧ q.last.Before p.first ∧
    Filter.nonBlank g.lower = some c ∧ Filter.nonBlank g.upper = some d ∧
    Stamp.read c = some r ∧ Stamp.read d = some s ∧ s.last.Before r.first ∧
    ∀ kind, query "6f1c2b8e-3d4a-4e5f-8a9b-0c1d2e3f4a5b" kind f =
        .error (.invalidValue "from" .rangeInverted) ∧
      ∃ x, query "6f1c2b8e-3d4a-4e5f-8a9b-0c1d2e3f4a5b" kind g = .ok x := by
  obtain ⟨u, hu⟩ := project_read
  let f : Filter := ⟨none, none, some " 2025-02-01T02:00:00+02:00", some "2025-01-31"⟩
  let g : Filter := ⟨none, none, some "+10000-01-01", some "9999-12-31 23:59:60"⟩
  have ha : Filter.nonBlank f.lower = some "2025-02-01T02:00:00+02:00" := by decide
  have hb : Filter.nonBlank f.upper = some "2025-01-31" := by decide
  have hc : Filter.nonBlank g.lower = some "+10000-01-01" := by decide
  have hd : Filter.nonBlank g.upper = some "9999-12-31 23:59:60" := by decide
  have hp : Stamp.read "2025-02-01T02:00:00+02:00" = some (.point ⟨⟨2025, 2, 1⟩, 0, 0, 0, 0⟩) := by
    decide
  have hq : Stamp.read "2025-01-31" = some (.day ⟨2025, 1, 31⟩) := by decide
  have hr : Stamp.read "+10000-01-01" = some (.day ⟨10000, 1, 1⟩) := by decide
  have hs : Stamp.read "9999-12-31 23:59:60" =
      some (.point ⟨⟨9999, 12, 31⟩, 23, 59, 60, 0⟩) := by decide
  have hi : (Stamp.day ⟨2025, 1, 31⟩).last.Before
      (Stamp.point ⟨⟨2025, 2, 1⟩, 0, 0, 0, 0⟩).first := .inl (by decide)
  have hj : (Stamp.point ⟨⟨9999, 12, 31⟩, 23, 59, 60, 0⟩).last.Before
      (Stamp.day ⟨10000, 1, 1⟩).first := .inl (by decide)
  refine ⟨u, f, g, _, _, _, _, _, _, _, _, hu, ha, hb, hp, hq, hi, hc, hd, hr, hs, hj, ?_⟩
  intro kind
  obtain ⟨inverted, -, -⟩ := range_refused _ u kind f _ _ _ _ hu ha hb hp hq
  obtain ⟨-, signed, given⟩ := range_refused _ u kind g _ _ _ _ hu hc hd hr hs
  exact ⟨(inverted (.inl rfl)).mpr hi,
    given.resolve_left (mt (signed (by decide)).mp (by decide))⟩

/-- From the last day of the year 9999 to the first one of the year 10000: the range is not
inverted, but it is refused. -/
theorem next_year_refused : ∃ (u : Uuid) (f : Filter) (a b : String) (p q : Stamp),
    Uuid.read (Text.trim "6f1c2b8e-3d4a-4e5f-8a9b-0c1d2e3f4a5b") = some u ∧
    f = ⟨none, none, some "9999-12-31", some "+10000-01-01"⟩ ∧
    Filter.nonBlank f.lower = some a ∧ Filter.nonBlank f.upper = some b ∧
    Stamp.read a = some p ∧ Stamp.read b = some q ∧
    p.first.Before q.last ∧ ¬q.last.Before p.first ∧
    ∀ kind, query "6f1c2b8e-3d4a-4e5f-8a9b-0c1d2e3f4a5b" kind f =
      .error (.invalidValue "from" .rangeInverted) := by
  obtain ⟨u, hu⟩ := project_read
  let f : Filter := ⟨none, none, some "9999-12-31", some "+10000-01-01"⟩
  have ha : Filter.nonBlank f.lower = some "9999-12-31" := by decide
  have hb : Filter.nonBlank f.upper = some "+10000-01-01" := by decide
  have hp : Stamp.read "9999-12-31" = some (.day ⟨9999, 12, 31⟩) := by decide
  have hq : Stamp.read "+10000-01-01" = some (.day ⟨10000, 1, 1⟩) := by decide
  have hr := range_read ha hb hp hq
  rw [if_pos (by decide)] at hr
  refine ⟨u, f, _, _, _, _, hu, rfl, ha, hb, hp, hq, .inl (by decide), ?_, fun kind =>
    query_refused hu kind hr⟩
  rintro (h | ⟨h, -⟩) <;> revert h <;> decide

end CohortQuery.Report
