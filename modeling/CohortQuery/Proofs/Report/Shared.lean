import CohortQuery.Proofs.Cohort.Literals
import CohortQuery.Proofs.Report.Range

/-!
# What reports share

The four reports refuse the same filters for the same reason. Their statements have one condition,
told by the fields that are given, behind which totals and trend leave out the events that only
identify a person. Blanks do not matter, and the values do not show in the statement.
-/

set_option autoImplicit false

namespace CohortQuery.Report

open Sql (RowTest Select)
open Time (startText endText)

namespace Filter

/-- The fields without blanks around them; a blank field is none. -/
def trimmed (f : Filter) : Filter :=
  ⟨nonBlank f.event, nonBlank f.distinctId, nonBlank f.lower, nonBlank f.upper⟩

def presence (f : Filter) : List Bool :=
  [f.event, f.distinctId, f.lower, f.upper].map fun s => (nonBlank s).isSome

def conditions (f : Filter) : List String :=
  "project_id = \x7bproject_id:UUID\x7d" ::
    given f.event "event_name = \x7bevent_name:String\x7d" ++
    given f.distinctId "distinct_id = \x7bdistinct_id:String\x7d" ++
    given f.lower "timestamp >= \x7bfrom:DateTime64(3)\x7d" ++
    given f.upper "timestamp <= \x7bto:DateTime64(3)\x7d"
where
  given (field : Option String) (condition : String) : List String :=
    if (nonBlank field).isSome then [condition] else []

end Filter

namespace Kind

def exclusions : Kind → List String
  | totals | trend _ => ["event_type != 'identify'"]
  | events _ _ | top _ => []

def opening (kind : Kind) : String :=
  "SELECT " ++ Text.join ", " kind.columns ++ " FROM " ++ Sql.eventsTable

def closing : Kind → String
  | events _ _ => " ORDER BY timestamp DESC LIMIT \x7blimit:UInt32\x7d OFFSET \x7boffset:UInt32\x7d"
  | totals => ""
  | trend _ => " GROUP BY period ORDER BY period"
  | top _ => " GROUP BY event_name ORDER BY count DESC, event_name LIMIT \x7blimit:UInt32\x7d"

def form : Kind → Kind
  | events _ _ => events 0 0
  | totals => totals
  | trend g => trend g
  | top _ => top 0

end Kind

theorem optional_conditions {α : Type} {name condition : String} {make : Placeholder → RowTest}
    {bind : α → Value} {v : Option α} {field : Option String}
    (hm : ∀ a, (make ⟨name, (bind a).type⟩).render = condition)
    (hv : v.isSome = (Filter.nonBlank field).isSome) :
    (Filter.optionalTests name make (v.map bind)).map RowTest.render =
      Filter.conditions.given field condition := by
  unfold Filter.conditions.given
  rw [← hv]
  cases v with
  | none => rfl
  | some a => exact congrArg (fun s => [s]) (hm a)

theorem tests_conditions {f : Filter} {bounds : Option String × Option String}
    (hl : bounds.1.isSome = (Filter.nonBlank f.lower).isSome)
    (hu : bounds.2.isSome = (Filter.nonBlank f.upper).isSome) :
    (f.tests bounds).map RowTest.render = f.conditions := by
  have project : RowTest.inProject.render = "project_id = \x7bproject_id:UUID\x7d" := rfl
  have event : (RowTest.equal .eventName ⟨"event_name", .text⟩).render =
      "event_name = \x7bevent_name:String\x7d" := rfl
  have person : (RowTest.equal .distinctId ⟨"distinct_id", .text⟩).render =
      "distinct_id = \x7bdistinct_id:String\x7d" := rfl
  have lower : (RowTest.notBefore ⟨.bound ⟨"from", .time⟩, none⟩).render =
      "timestamp >= \x7bfrom:DateTime64(3)\x7d" := rfl
  have upper : (RowTest.notAfter (.bound ⟨"to", .time⟩)).render =
      "timestamp <= \x7bto:DateTime64(3)\x7d" := rfl
  rw [Filter.tests, List.map_append, List.map_append, List.map_append, List.map_cons, project,
    optional_conditions (fun _ => event) rfl, optional_conditions (fun _ => person) rfl,
    optional_conditions (fun _ => lower) hl, optional_conditions (fun _ => upper) hu]
  rfl

theorem closing_clauses (kind : Kind) :
    Select.clause " GROUP BY " Select.listed kind.groups ++
      (Select.clause " HAVING " Select.conjunction [] ++
        (Select.clause " ORDER BY " Select.listed kind.order ++
          (Select.optionClause " LIMIT " ((numberPlace "limit" kind.limit?).map Placeholder.render) ++
            Select.optionClause " OFFSET "
              ((numberPlace "offset" kind.offset?).map Placeholder.render)))) = kind.closing := by
  cases kind <;> rfl

theorem select_text (kind : Kind) {f : Filter} {bounds : Option String × Option String}
    (hl : bounds.1.isSome = (Filter.nonBlank f.lower).isSome)
    (hu : bounds.2.isSome = (Filter.nonBlank f.upper).isSome) :
    (select kind (f.tests bounds)).render =
      kind.opening ++ " WHERE " ++ Text.join " AND " (f.conditions ++ kind.exclusions) ++
        kind.closing := by
  have own : kind.ownTests.map RowTest.render = kind.exclusions := by cases kind <;> rfl
  have hc : (f.tests bounds ++ kind.ownTests).map RowTest.render =
      f.conditions ++ kind.exclusions := by
    rw [List.map_append, tests_conditions hl hu, own]
  have hk : (if kind.columns.isEmpty then "*" else Select.listed kind.columns) =
      Text.join ", " kind.columns := by
    cases kind <;> rfl
  have hw : Select.clause " WHERE " Select.conjunction (f.conditions ++ kind.exclusions) =
      " WHERE " ++ Text.join " AND " (f.conditions ++ kind.exclusions) :=
    if_neg (by simp [Filter.conditions])
  have clauses : (select kind (f.tests bounds)).render =
      "SELECT " ++ "" ++ (if kind.columns.isEmpty then "*" else Select.listed kind.columns) ++
        " FROM " ++ Sql.eventsTable ++
        Select.clause " WHERE " Select.conjunction
          ((f.tests bounds ++ kind.ownTests).map RowTest.render) ++
        Select.clause " GROUP BY " Select.listed kind.groups ++
        Select.clause " HAVING " Select.conjunction [] ++
        Select.clause " ORDER BY " Select.listed kind.order ++
        Select.optionClause " LIMIT " ((numberPlace "limit" kind.limit?).map Placeholder.render) ++
        Select.optionClause " OFFSET "
          ((numberPlace "offset" kind.offset?).map Placeholder.render) := rfl
  rw [clauses, hc, hk, hw, ← closing_clauses, Kind.opening]
  simp only [String.append_assoc, String.append_empty]

namespace Filter

theorem blank_none (s : String) : nonBlank (some s) = none ↔ Text.isBlankText s = true := by
  have ht : (Text.trim s).isEmpty = true ↔ Text.isBlankText s = true := by
    rw [String.isEmpty_iff, ← String.toList_inj, Text.trim, String.toList_ofList]
    exact Text.trim_blank.trans (by rw [Text.isBlankText, List.all_eq_true])
  rw [← ht, nonBlank, Option.map_some, Option.filter_some]
  cases (Text.trim s).isEmpty <;> simp

theorem blanks_around {w w' : String} (s : String) (hw : Text.isBlankText w = true)
    (hw' : Text.isBlankText w' = true) : nonBlank (some (w ++ s ++ w')) = nonBlank (some s) := by
  have ht : Text.trim (w ++ s ++ w') = Text.trim s := by
    simp only [Text.trim, String.toList_append]
    rw [Text.trim_around _ (List.all_eq_true.mp hw) (List.all_eq_true.mp hw')]
  rw [nonBlank, nonBlank, Option.map_some, Option.map_some, ht]

theorem presence_conditions {f g : Filter} (h : f.presence = g.presence) :
    f.conditions = g.conditions := by
  simp only [presence, List.map_cons, List.map_nil, List.cons.injEq, and_true] at h
  simp only [conditions, conditions.given, h]

theorem bound_ok {name : String} {field : Option String} {normalize : String → Option String}
    {v : Option String} :
    bound name field normalize = .ok v ↔ (nonBlank field).mapM normalize = some v := by
  unfold bound
  cases nonBlank field with
  | none => simp
  | some s => cases h : normalize s <;> simp [h]

theorem range_ok {f : Filter} {bounds : Option String × Option String}
    (h : f.range = .ok bounds) : (nonBlank f.lower).mapM startText = some bounds.1 ∧
      (nonBlank f.upper).mapM endText = some bounds.2 := by
  simp only [range, Binder.except_bind, bound_ok] at h
  obtain ⟨lower, hl, upper, hu, h⟩ := h
  have hb : (lower, upper) = bounds := by
    split at h
    · split at h
      · cases h
      · exact Except.ok.inj h
    · exact Except.ok.inj h
  exact hb ▸ ⟨hl, hu⟩

end Filter

theorem presence_kept {α β : Type} {f : α → Option β} {o : Option α} {v : Option β}
    (h : o.mapM f = some v) : v.isSome = o.isSome := by
  cases o with
  | none => cases h; rfl
  | some a =>
    rw [Option.mapM_some] at h
    obtain ⟨b, -, rfl⟩ := Option.map_eq_some_iff.mp h
    rfl

theorem report_values (u : Uuid) (kind : Kind) (f : Filter)
    (bounds : Option String × Option String) :
    let named := (Bindings.projectName, Value.uuid u.render) :: values kind f bounds
    (Bindings.nameAll ⟨[(Bindings.projectName, .uuid u.render)], 0, none⟩
      (values kind f bounds)).params.Perm named ∧ (named.map Prod.fst).Nodup := by
  intro named
  have hs := values_sublist kind f bounds
  have hn : (named.map Prod.fst).Nodup := (hs.cons_cons Bindings.projectName).nodup (by decide)
  refine ⟨?_, hn⟩
  have hp := set_all_perm [(Bindings.projectName, .uuid u.render)] (values kind f bounds)
    (List.perm_append_singleton _ _ |>.nodup_iff.mpr hn)
  rw [name_all_params]
  exact hp.trans (List.perm_append_singleton _ _)

theorem report_given {projectId : String} {f : Filter} {bounds : Option String × Option String}
    {u : Uuid} (hu : Uuid.read (Text.trim projectId) = some u) (hr : f.range = .ok bounds)
    (kind : Kind) : ∃ q, query projectId kind f = .ok q ∧
      q.sql = kind.opening ++ " WHERE " ++ Text.join " AND " (f.conditions ++ kind.exclusions) ++
        kind.closing ∧
      q.params.Perm ((Bindings.projectName, .uuid u.render) :: values kind f bounds) ∧
      (q.params.map Prod.fst).Nodup := by
  have hb := (project_ok _ _).mpr ⟨u, hu, rfl⟩
  obtain ⟨hl, ht⟩ := Filter.range_ok hr
  obtain ⟨hp, hn⟩ := report_values u kind f bounds
  exact ⟨_, (query_ok _ _ _ _).mpr ⟨_, bounds, hb, hr, rfl⟩,
    select_text kind (presence_kept hl) (presence_kept ht), hp, (hp.map _).nodup_iff.mpr hn⟩

theorem query_trimmed {f g : Filter} (h : f.trimmed = g.trimmed) (projectId : String)
    (kind : Kind) : query projectId kind f = query projectId kind g := by
  obtain ⟨he, hd, hl, hu⟩ := Filter.mk.inj h
  have hc : f.compile = g.compile := by
    simp only [Filter.compile, Filter.range, Filter.bound, he, hd, hl, hu]
  rw [query, query, compileSelect, compileSelect, hc]

/-- The text of a statement is told by the form of its kind and by the fields that are given. -/
theorem text_told {kind kind' : Kind} {f g : Filter} {projectId projectId' : String} {q r : Query}
    (hk : kind.form = kind'.form) (hp : f.presence = g.presence)
    (hq : query projectId kind f = .ok q) (hr : query projectId' kind' g = .ok r) :
    q.sql = r.sql := by
  have text {projectId : String} {kind : Kind} {f : Filter} {q : Query}
      (hq : query projectId kind f = .ok q) : q.sql = kind.form.opening ++ " WHERE " ++
        Text.join " AND " (f.conditions ++ kind.form.exclusions) ++ kind.form.closing := by
    obtain ⟨b, bounds, -, hr, rfl⟩ := (query_ok _ _ _ _).mp hq
    obtain ⟨hl, hu⟩ := Filter.range_ok hr
    obtain ⟨ho, he, hc⟩ : kind.form.opening = kind.opening ∧
        kind.form.exclusions = kind.exclusions ∧ kind.form.closing = kind.closing := by
      cases kind <;> exact ⟨rfl, rfl, rfl⟩
    rw [ho, he, hc]
    exact select_text kind (presence_kept hl) (presence_kept hu)
  rw [text hq, text hr, hk, Filter.presence_conditions hp]

/-- The four reports on a project and a filter are refused for one reason, or none of them is. Then
each has the condition of the filter, with the exclusion of its kind behind it, and binds the
project, what the filter has and its own numbers. A blank field is none, and blanks around a field
do not matter. Nothing else of the filter shows in the statement than which fields are given. -/
theorem filters_shared :
    (∀ (projectId : String) (f : Filter),
      (∃ e, ∀ kind, query projectId kind f = .error e) ∨
      ∃ u lower upper, Uuid.read (Text.trim projectId) = some u ∧
        (Filter.nonBlank f.lower).mapM startText = some lower ∧
        (Filter.nonBlank f.upper).mapM endText = some upper ∧
        ∀ kind, ∃ q, query projectId kind f = .ok q ∧
          q.sql = kind.opening ++ " WHERE " ++
            Text.join " AND " (f.conditions ++ kind.exclusions) ++ kind.closing ∧
          q.params.Perm ((Bindings.projectName, .uuid u.render) :: values kind f (lower, upper)) ∧
          (q.params.map Prod.fst).Nodup) ∧
    (Filter.nonBlank none = none ∧
      ∀ s, Filter.nonBlank (some s) = none ↔ Text.isBlankText s = true) ∧
    (∀ w s w', Text.isBlankText w = true → Text.isBlankText w' = true →
      Filter.nonBlank (some (w ++ s ++ w')) = Filter.nonBlank (some s)) ∧
    (∀ f g : Filter, f.trimmed = g.trimmed →
      ∀ projectId kind, query projectId kind f = query projectId kind g) ∧
    ∀ (kind kind' : Kind) (f g : Filter) (projectId projectId' : String) (q r : Query),
      kind.form = kind'.form → f.presence = g.presence → query projectId kind f = .ok q →
        query projectId' kind' g = .ok r → q.sql = r.sql := by
  refine ⟨fun projectId f => ?_, ⟨rfl, Filter.blank_none⟩, fun w s w' => Filter.blanks_around s,
    fun f g => query_trimmed, fun _ _ _ _ _ _ _ _ => text_told⟩
  refine (query_cases projectId f).imp_right ?_
  rintro ⟨u, bounds, hu, hr⟩
  obtain ⟨hl, ht⟩ := Filter.range_ok hr
  exact ⟨u, bounds.1, bounds.2, hu, hl, ht, report_given hu hr⟩

theorem visits_shared :
    let project := "6f1c2b8e-3d4a-4e5f-8a9b-0c1d2e3f4a5b"
    let visits : Filter := ⟨some "visit", none, some "2025-03-01", none⟩
    let padded : Filter := ⟨some " visit\t", some "\u3000", some "\n2025-03-01", some ""⟩
    let logins : Filter := ⟨some "login", none, some "2024-12-31", none⟩
    Filter.nonBlank (some "\u3000") = none ∧
    Filter.nonBlank (some (" " ++ "visit" ++ "\t")) = Filter.nonBlank (some "visit") ∧
    (∀ kind, query project kind padded = query project kind visits) ∧
    (∃ q r, query project (.events 10 0) padded = .ok q ∧
      query project (.events 500 20) logins = .ok r ∧ q.sql = r.sql) ∧
    ∃ q, query project .totals padded = .ok q ∧ q.params.Perm
      [("project_id", .uuid project), ("event_name", .text "visit"),
        ("from", .time "2025-03-01 00:00:00.000")] := by
  intro project visits padded logins
  obtain ⟨each, ⟨-, blank⟩, around, trimmed, told⟩ := filters_shared
  have same : ∀ kind, query project kind padded = query project kind visits :=
    trimmed padded visits (by decide) project
  have known : (Uuid.read (Text.trim project)).map Uuid.render = some project :=
    Uuid.grouped_render rfl
  obtain ⟨w, hw, -⟩ := Option.map_eq_some_iff.mp known
  have not_refused {f : Filter} {bounds : Option String × Option String}
      (h : f.range = .ok bounds) : ¬∃ e, ∀ kind, query project kind f = .error e := by
    rintro ⟨e, he⟩
    obtain ⟨q, hq, -⟩ := report_given hw h .totals
    rw [he] at hq
    cases hq
  obtain ⟨u, lower, upper, hu, hl, ht, visit⟩ := (each project visits).resolve_left
    (not_refused rfl)
  obtain ⟨_, _, _, -, -, -, login⟩ := (each project logins).resolve_left
    (not_refused rfl)
  refine ⟨(blank _).mpr (by decide), around _ _ _ (by decide) (by decide), same, ?_, ?_⟩
  · obtain ⟨q, hq, -⟩ := visit (.events 10 0)
    obtain ⟨r, hr, -⟩ := login (.events 500 20)
    have hs := told (.events 10 0) (.events 500 20) visits logins _ _ q r rfl (by decide) hq hr
    exact ⟨q, r, (same _).trans hq, hr, hs⟩
  · obtain ⟨q, hq, -, hp, -⟩ := visit .totals
    have hf : (Filter.nonBlank visits.lower).mapM startText =
        some (some "2025-03-01 00:00:00.000") := by decide
    have hn : (Filter.nonBlank visits.upper).mapM endText = some none := by decide
    obtain rfl := Option.some.inj (hl.symm.trans hf)
    obtain rfl := Option.some.inj (ht.symm.trans hn)
    rw [hu] at known
    rw [Option.some.inj known] at hp
    exact ⟨q, (same _).trans hq, hp⟩

end CohortQuery.Report
