import CohortQuery.Proofs.Cohort.Operands

/-!
# Closed statements

Every placeholder in the text of a statement is bound to a value of its type, and every value
that is bound is named in the text. The date at which time windows end is the exception: it is
bound before it is known whether there is a window.
-/

set_option autoImplicit false

namespace CohortQuery

open Sql (Predicate RowTest phrase)

/-- The placeholders `ps` are those of the text. All are bound to values of their types, and
the parameters they do not name are the `idle` ones. -/
structure ClosedBy (q : Query) (ps : List Placeholder) (idle : String → Prop) : Prop where
  text : Sql.placeholders q.sql = some ps
  bound : ∀ p ∈ ps, ∃ v, q.params.get? p.name = some v ∧ v.type = p.type
  named : ∀ name, (q.params.get? name).isSome ∧ name ∉ ps.map Placeholder.name ↔ idle name

def Closed (q : Query) : Prop :=
  ∃ ps, ClosedBy q ps fun _ => False

def freshNames (stems : List String) : List String :=
  stems.zipIdx.map fun (stem, n) => Bindings.freshName stem n

/-- The parameters of a new statement are the project and, if there is one, the date. -/
structure Started (b : Bindings) (dateTo : Option String) : Prop where
  counter : b.counter = 0
  date : b.dateTo.isSome = dateTo.isSome
  params : ∃ u : Uuid, ∀ name v, b.params.get? name = some v ↔
    (name = Bindings.projectName ∧ v = .uuid u.render) ∨
      ∃ t, b.dateTo = some t ∧ name = Bindings.dateToName ∧ v = .time t

theorem started {projectId : String} {dateTo : Option String} {b : Bindings}
    (h : Bindings.start projectId dateTo = .ok b) : Started b dateTo := by
  obtain ⟨u, _, hd⟩ := (start_ok _ _ _).mp h
  have hp (name : String) (v : Value) : (Bindings.opened u none).params.get? name = some v ↔
      name = Bindings.projectName ∧ v = .uuid u.render := by
    by_cases hn : name = Bindings.projectName
    · simp [Bindings.opened, Params.get?, hn, eq_comm]
    · have hb : (name == Bindings.projectName) = false := by simpa using hn
      simp [Bindings.opened, Params.get?, List.lookup_cons, hb, hn]
  obtain ⟨rfl, rfl⟩ | ⟨date, t, rfl, _, rfl⟩ := hd
  · exact ⟨rfl, rfl, u, fun name v => by simpa using hp name v⟩
  · refine ⟨rfl, rfl, u, fun name v => ?_⟩
    rw [opened_set]
    by_cases hn : name = Bindings.dateToName
    · subst hn
      have hd : Bindings.dateToName ≠ Bindings.projectName := by decide
      rw [get_set]
      simp [hd, eq_comm]
    · rw [get_set_other _ _ _ _ hn, hp]
      simp [hn]

theorem has_bound {params : Params} {entries : List (String × Value)}
    (h : params.Has entries) {p : Placeholder} (hp : p ∈ places entries) :
    ∃ v, params.get? p.name = some v ∧ v.type = p.type := by
  obtain ⟨e, he, rfl⟩ := List.mem_map.mp hp
  exact ⟨e.2, h e he, rfl⟩

theorem compiled_params {b : Bindings} {dateTo : Option String} (hb : Started b dateTo)
    (vs : Literals) (name : String) : ((b.bindAll vs).params.get? name).isSome ↔
      name ∈ (places (Bindings.numbered 0 vs)).map Placeholder.name ∨
        name = Bindings.projectName ∨ (dateTo.isSome ∧ name = Bindings.dateToName) := by
  obtain ⟨u, hu⟩ := hb.params
  have hn := Bindings.numbered_nodup 0 vs
  have hm : (places (Bindings.numbered 0 vs)).map Placeholder.name =
      (Bindings.numbered 0 vs).map Prod.fst := by
    rw [places, List.map_map]
    rfl
  rw [hm, Bindings.bind_all_params, hb.counter, Option.isSome_iff_exists, ← hb.date]
  simp only [get_set_all _ _ _ _ hn, hu]
  constructor
  · rintro ⟨v, h | ⟨⟨h, _⟩ | ⟨t, ht, h, _⟩, _⟩⟩
    · exact .inl (List.mem_map.mpr ⟨_, h, rfl⟩)
    · exact .inr (.inl h)
    · exact .inr (.inr ⟨by simp [ht], h⟩)
  · rintro (h | rfl | ⟨ht, rfl⟩)
    · obtain ⟨e, he, rfl⟩ := List.mem_map.mp h
      exact ⟨e.2, .inl he⟩
    · exact ⟨_, .inr ⟨.inl ⟨rfl, rfl⟩, Bindings.unnumbered 0 vs (by decide)⟩⟩
    · obtain ⟨t, ht⟩ := Option.isSome_iff_exists.mp ht
      exact ⟨.time t, .inr ⟨.inr ⟨t, ht, rfl, rfl⟩, Bindings.unnumbered 0 vs (by decide)⟩⟩

theorem cohort_free {b : Bindings} {dateTo : Option String} (hb : Started b dateTo)
    (vs : Literals) : (b.bindAll vs).params.get? cohortName = none := by
  obtain ⟨u, hu⟩ := hb.params
  rw [Bindings.bind_all_get b _ vs (by decide), Option.eq_none_iff_forall_ne_some]
  intro v hv
  rcases (hu _ v).mp hv with ⟨h, _⟩ | ⟨t, _, h, _⟩
  · exact absurd h (by decide)
  · exact absurd h (by decide)

section

variable {b : Bindings} {dateTo : Option String} {timed : Bool} {vs : Literals}
  {ps : List Placeholder} (hb : Started b dateTo) (hn : Names b.stop timed 0 vs ps)

include hb hn

theorem operands_bound {params : Params}
    (hp : ∀ name v, (b.bindAll vs).params.get? name = some v → params.get? name = some v) :
    ∀ p ∈ Bindings.project :: ps, ∃ v, params.get? p.name = some v ∧ v.type = p.type := by
  obtain ⟨u, hu⟩ := hb.params
  have hproject : params.get? Bindings.projectName = some (.uuid u.render) := by
    apply hp
    rw [Bindings.bind_all_get b _ vs (by decide)]
    exact (hu _ _).mpr (.inl ⟨rfl, rfl⟩)
  have hnumbered : params.Has (Bindings.numbered 0 vs) := by
    intro e he
    rw [← hb.counter] at he
    exact hp _ _ (Bindings.bind_all_has b vs e he)
  intro p hm
  rcases List.mem_cons.mp hm with rfl | hm
  · exact ⟨_, hproject, rfl⟩
  · by_cases hf : p.isNumbered
    · have hin : p ∈ ps.filter Placeholder.isNumbered := List.mem_filter.mpr ⟨hm, hf⟩
      rw [hn.numbered] at hin
      exact has_bound hnumbered hin
    · rcases hn.fixed p hm (by simpa using hf) with rfl | ⟨_, hs⟩
      · exact ⟨_, hproject, rfl⟩
      · unfold Bindings.stop at hs
        cases hd : b.dateTo with
        | none =>
          rw [hd] at hs
          cases hs
        | some t =>
          rw [hd] at hs
          obtain rfl := List.mem_singleton.mp hs
          refine ⟨.time t, hp _ _ ?_, rfl⟩
          change (b.bindAll vs).params.get? Bindings.dateToName = _
          rw [Bindings.bind_all_get b _ vs (by decide)]
          exact (hu _ _).mpr (.inr ⟨t, hd, rfl, rfl⟩)

theorem operands_named (name : String) : ((b.bindAll vs).params.get? name).isSome ∧
    name ∉ (Bindings.project :: ps).map Placeholder.name ↔
      name = Bindings.dateToName ∧ dateTo.isSome ∧ timed = false := by
  rw [compiled_params hb vs name, ← hn.numbered, List.map_cons, List.mem_cons, not_or]
  constructor
  · rintro ⟨h | h | ⟨hd, rfl⟩, hproject, hout⟩
    · obtain ⟨p, hp, rfl⟩ := List.mem_map.mp h
      exact absurd (List.mem_map_of_mem (List.mem_filter.mp hp).1) hout
    · exact absurd h hproject
    · refine ⟨rfl, hd, ?_⟩
      by_contra ht
      have hs := hn.stops (by simpa using ht)
      obtain ⟨t, ht⟩ := Option.isSome_iff_exists.mp (hb.date ▸ hd)
      have hm : Bindings.dateToPlaceholder ∈ b.stop.operands := by
        simp [Bindings.stop, ht, Sql.Moment.operands]
      exact hout (List.mem_map_of_mem (hs hm))
  · rintro ⟨rfl, hd, ht⟩
    refine ⟨.inr (.inr ⟨hd, rfl⟩), by decide, ?_⟩
    intro hin
    obtain ⟨p, hp, he⟩ := List.mem_map.mp hin
    rcases hn.fixed p hp (by simp [Placeholder.isNumbered, he]) with rfl | ⟨h, _⟩
    · exact absurd he (by decide)
    · rw [ht] at h
      cases h

omit hb in
theorem operands_numbered : ((Bindings.project :: ps).filter Placeholder.isNumbered).map
    Placeholder.name = freshNames (vs.map Prod.fst) := by
  have hp : Bindings.project.isNumbered = false := by decide
  have hv (n : Nat) (us : Literals) : (places (Bindings.numbered n us)).map Placeholder.name =
      ((us.map Prod.fst).zipIdx n).map fun (stem, n) => Bindings.freshName stem n := by
    induction us generalizing n with
    | nil => rfl
    | cons u us ih => exact congrArg _ (ih (n + 1))
  rw [List.filter_cons_of_neg (by simp [hp]), hn.numbered]
  exact hv 0 vs

end

section

variable {c : Char} (hc : c = '?' ∨ c = '\x7b')

include hc

theorem known_lacks (cs : List Char) (h : '?' ∉ cs ∧ '\x7b' ∉ cs) :
    Sql.Lacks c (String.ofList cs) := by
  rcases hc with rfl | rfl
  · exact Sql.lacks_chars cs h.1
  · exact Sql.lacks_chars cs h.2

theorem resolved_person_lacks : Sql.Lacks c Sql.resolvedPerson :=
  Sql.Lacks.append (known_lacks hc _ (by decide)) (known_lacks hc _ (by decide))

theorem resolved_column_lacks : Sql.Lacks c Sql.resolvedPersonColumn :=
  Sql.Lacks.append (Sql.Lacks.append (resolved_person_lacks hc) (known_lacks hc _ (by decide)))
    (known_lacks hc _ (by decide))

end

section

variable {p : Predicate} (hp : p.Proper)

include hp

theorem restriction_holes : Sql.holes (phrase RowTest.inProject.render) ++
    Sql.holes (phrase ("(" ++ Predicate.render p ++ ")")) =
      (Bindings.project :: p.operands).map Placeholder.inner := by
  rw [Sql.row_phrase .inProject trivial, parenthesized_phrase hp, Sql.holes_group,
    Sql.predicate_holes p hp]
  rfl

theorem listing_placeholders : Sql.placeholders (listingSelect p).render =
    some (Bindings.project :: p.operands) := by
  have hr := restricted_text listing_open hp
  have hk := Sql.holes_free (resolved_column_lacks (.inr rfl))
  have hs : (listingSelect p).parts = ["distinct_id", Sql.resolvedPersonColumn, Sql.eventsTable,
      RowTest.inProject.render, "(" ++ Predicate.render p ++ ")", "distinct_id"] := rfl
  rw [← listing_restricted] at hr
  refine Sql.reads_placeholders hr ?_ ?_
  · rw [Sql.select_holes, hs, ← restriction_holes hp]
    simp [Sql.distinct_id_holes, Sql.events_holes, hk]
  · intro q hq
    rcases List.mem_cons.mp hq with rfl | hq
    · decide
    · exact Sql.operands_proper hp q hq

theorem insert_placeholders : Sql.placeholders (Materialization.insertText p) =
    some (cohortPlaceholder :: Bindings.project :: p.operands) := by
  have hh : Sql.holes insertHead = [] := rfl
  have hc : (["project_id", cohortPlaceholder.render, "distinct_id", Sql.eventsTable].flatMap
      fun e => Sql.holes (phrase e)) = [cohortPlaceholder.inner] := by
    have hk : Sql.holes (phrase "project_id") = [] :=
      Sql.holes_free (Sql.lacks_chars _ (by decide))
    have hr := Sql.phrase_reads (Sql.reads_placeholder cohortPlaceholder (by decide))
    simp [hk, hr, Sql.holes_hole, Sql.distinct_id_holes, Sql.events_holes]
  have hs : (insertSelect p).parts =
      ["project_id", cohortPlaceholder.render, "distinct_id", Sql.eventsTable] ++
        [RowTest.inProject.render, "(" ++ Predicate.render p ++ ")"] := rfl
  refine Sql.reads_placeholders (insert_text p hp) ?_ ?_
  · rw [Sql.holes_append, hh, Sql.select_holes, hs, List.flatMap_append, hc, List.map_cons,
      ← restriction_holes hp]
    simp
  · intro q hq
    rcases List.mem_cons.mp hq with rfl | hq
    · decide
    · rcases List.mem_cons.mp hq with rfl | hq
      · decide
      · exact Sql.operands_proper hp q hq

end

theorem clear_placeholders : Sql.placeholders Materialization.clearText =
    some [Bindings.project, cohortPlaceholder] :=
  Sql.reads_placeholders clear_text rfl (by decide)

theorem count_placeholders : Sql.placeholders Materialization.countText =
    some [Bindings.project, cohortPlaceholder] := by
  have hs : countSelect.parts =
      ["count()", Sql.membersTable ++ " FINAL"] ++ storedRows.map RowTest.render := rfl
  have hc : Sql.holes (phrase "count()") = [] := Sql.holes_free (Sql.lacks_chars _ (by decide))
  have hm : Sql.holes (phrase (Sql.membersTable ++ " FINAL")) = [] := by
    rw [Sql.phrase_reads final_reads]
    rfl
  rw [count_select]
  refine Sql.reads_placeholders (Sql.selects_text count_selects) ?_ (by decide)
  rw [Sql.select_holes, hs, List.flatMap_append, Sql.rows_holes storedRows stored_proper,
    List.flatMap_cons, hc, List.flatMap_cons, hm]
  rfl

/-- The end of the windows, where no condition of the definition has one. -/
def IdleDate (d : Definition) (dateTo : Option String) (name : String) : Prop :=
  name = Bindings.dateToName ∧ dateTo.isSome ∧ ∀ l ∈ d.root.leaves, l.isTimed = false

theorem compiled_names_values {b c : Bindings} {dateTo : Option String} (hb : Started b dateTo)
    {d : Definition} {allowed : AllowList} {p : Predicate}
    (h : (d.compile allowed).Yields b p c) : ∃ vs, c = b.bindAll vs ∧ p.Proper ∧
      c.counter = vs.length ∧ Names b.stop (d.root.leaves.any Leaf.isTimed) 0 vs p.operands := by
  obtain ⟨vs, hl, rfl⟩ := (yields_node allowed Limits.depth d.root b c p).mp h
  have hn := node_operands hl
  rw [hb.counter] at hn
  refine ⟨vs, rfl, node_proper (stop_proper b) hl, ?_, hn⟩
  rw [Bindings.bind_all_counter, hb.counter, Nat.zero_add]

theorem idle_date (d : Definition) (dateTo : Option String) (name : String) :
    (name = Bindings.dateToName ∧ dateTo.isSome ∧ d.root.leaves.any Leaf.isTimed = false) ↔
      IdleDate d dateTo name := by
  simp [IdleDate, List.any_eq_false]

theorem listing_closed {b : Bindings} {dateTo : Option String} (hb : Started b dateTo)
    {d : Definition} {allowed : AllowList} {q : Query} (h : d.listing allowed b = .ok q) :
    ∃ p c ps stems, (d.compile allowed).Yields b p c ∧ q.params = c.params ∧
      ClosedBy q ps (IdleDate d dateTo) ∧ stems.length = c.counter ∧
        (ps.filter Placeholder.isNumbered).map Placeholder.name = freshNames stems := by
  obtain ⟨p, c, hy, rfl⟩ := (listing_ok d allowed b q).mp h
  obtain ⟨vs, rfl, hp, hc, hn⟩ := compiled_names_values hb hy
  refine ⟨p, _, _, vs.map Prod.fst, hy, rfl, ⟨listing_placeholders hp, ?_, ?_⟩, ?_, ?_⟩
  · exact operands_bound hb hn fun _ _ hv => hv
  · exact fun name => (operands_named hb hn name).trans (idle_date d dateTo name)
  · rw [List.length_map, hc]
  · exact operands_numbered hn

theorem insert_closed {b : Bindings} {dateTo : Option String} (hb : Started b dateTo)
    {d : Definition} {cohort : String} {allowed : AllowList} {m : Materialization}
    (h : d.materialization cohort allowed b = .ok m) :
    ∃ ps, ClosedBy m.insert ps (IdleDate d dateTo) := by
  obtain ⟨_, p, c, hy, rfl⟩ := (materialization_ok d cohort allowed b m).mp h
  obtain ⟨vs, rfl, hp, _, hn⟩ := compiled_names_values hb hy
  refine ⟨_, insert_placeholders hp, ?_, ?_⟩
  · intro q hq
    rcases List.mem_cons.mp hq with rfl | hq
    · exact ⟨.text cohort, get_set _ _ _, rfl⟩
    · refine operands_bound hb hn ?_ q hq
      intro name v hv
      have hne : name ≠ cohortName := by
        rintro rfl
        rw [cohort_free hb vs] at hv
        cases hv
      exact (get_set_other _ _ _ _ hne).trans hv
  · intro name
    rw [← idle_date, ← operands_named hb hn name, List.map_cons, List.mem_cons, not_or]
    by_cases hname : name = cohortName
    · subst hname
      simp [cohortPlaceholder, cohort_free hb vs]
    · have hg : (stored p ((b.bindAll vs).bindNamed cohortName (.text cohort)).2).insert.params.get?
          name = (b.bindAll vs).params.get? name := get_set_other _ _ _ _ hname
      rw [hg]
      exact and_congr_right fun _ => and_iff_right hname

theorem scope_params (params : Params) (name : String) :
    (Materialization.scopeParams params).get? name =
      if name = Bindings.projectName ∨ name = cohortName then params.get? name else none := by
  have hf := get_filter params (fun k => k = Bindings.projectName || k = cohortName) name
  simpa [Materialization.scopeParams] using hf

theorem scope_closed {b : Bindings} {dateTo : Option String} (hb : Started b dateTo)
    (cohort sql : String) (vs : Literals)
    (hs : Sql.placeholders sql = some [Bindings.project, cohortPlaceholder]) :
    Closed ⟨sql, Materialization.scopeParams
      ((b.bindAll vs).bindNamed cohortName (.text cohort)).2.params⟩ := by
  obtain ⟨u, hu⟩ := hb.params
  have hproject : (b.bindAll vs).params.get? Bindings.projectName = some (.uuid u.render) := by
    rw [Bindings.bind_all_get b _ vs (by decide)]
    exact (hu _ _).mpr (.inl ⟨rfl, rfl⟩)
  have hset : ((b.bindAll vs).params.set cohortName (.text cohort)).get? Bindings.projectName =
      some (.uuid u.render) := (get_set_other _ _ _ _ (by decide)).trans hproject
  refine ⟨_, hs, ?_, ?_⟩
  · intro q hq
    simp only [List.mem_cons, List.not_mem_nil, or_false] at hq
    rcases hq with rfl | rfl
    · refine ⟨.uuid u.render, ?_, rfl⟩
      exact (scope_params _ _).trans ((if_pos (.inl rfl)).trans hset)
    · refine ⟨.text cohort, ?_, rfl⟩
      exact (scope_params _ _).trans ((if_pos (.inr rfl)).trans (get_set _ _ _))
  · intro name
    rw [scope_params]
    by_cases hn : name = Bindings.projectName ∨ name = cohortName
    · refine iff_of_false (fun h => h.2 ?_) id
      simpa [Bindings.project, cohortPlaceholder] using hn
    · simp [hn]

theorem stored_closed {b : Bindings} {dateTo : Option String} (hb : Started b dateTo)
    {d : Definition} {cohort : String} {allowed : AllowList} {m : Materialization}
    (h : d.materialization cohort allowed b = .ok m) : Closed m.clear ∧ Closed m.count := by
  obtain ⟨_, p, c, hy, rfl⟩ := (materialization_ok d cohort allowed b m).mp h
  obtain ⟨vs, rfl, _⟩ := compiled_names_values hb hy
  exact ⟨scope_closed hb cohort _ vs clear_placeholders,
    scope_closed hb cohort _ vs count_placeholders⟩

theorem name_all_params (b : Bindings) (vs : List (String × Value)) :
    (b.nameAll vs).params = b.params.setAll vs := by
  induction vs generalizing b with
  | nil => rfl
  | cons v vs ih => exact ih (b.bindNamed v.1 v.2).2

theorem named_params (u : Uuid) {vs : List (String × Value)} (hd : (vs.map Prod.fst).Nodup)
    (name : String) (v : Value) :
    ((Bindings.nameAll ⟨[(Bindings.projectName, .uuid u.render)], 0, none⟩ vs).params.get? name =
      some v) ↔ (name, v) ∈ vs ∨ (name = Bindings.projectName ∧ v = .uuid u.render ∧
        name ∉ vs.map Prod.fst) := by
  rw [name_all_params, get_set_all _ _ _ _ hd]
  by_cases hn : name = Bindings.projectName
  · simp [Params.get?, hn, eq_comm]
  · have hl : (name == Bindings.projectName) = false := by simpa using hn
    simp [Params.get?, List.lookup_cons, hl, hn]

theorem named_closed {projectId : String} {b : Bindings} {vs : List (String × Value)}
    {sql : String} (hb : Bindings.forProject projectId = .ok b) (hd : (vs.map Prod.fst).Nodup)
    (hp : Bindings.projectName ∉ vs.map Prod.fst)
    (hs : Sql.placeholders sql = some (Bindings.project :: places vs)) :
    Closed ((b.nameAll vs).finish sql) := by
  obtain ⟨u, _, rfl⟩ := (project_ok _ _).mp hb
  have hg := named_params u hd
  have hm : (places vs).map Placeholder.name = vs.map Prod.fst := by
    rw [places, List.map_map]
    rfl
  refine ⟨_, hs, ?_, ?_⟩
  · intro q hq
    rcases List.mem_cons.mp hq with rfl | hq
    · exact ⟨_, (hg _ _).mpr (.inr ⟨rfl, rfl, hp⟩), rfl⟩
    · exact has_bound (fun e he => (hg _ _).mpr (.inl he)) hq
  · intro name
    rw [List.map_cons, List.mem_cons, hm, iff_false, not_and, not_not, Option.isSome_iff_exists]
    rintro ⟨v, hv⟩
    rcases (hg name v).mp hv with h | ⟨rfl, _⟩
    · exact .inr (List.mem_map.mpr ⟨_, h, rfl⟩)
    · exact .inl rfl

namespace Report

theorem optional_operands (name : String) (make : Placeholder → RowTest) (v : Option Value)
    (h : ∀ p, (make p).operands = [p]) :
    (Filter.optionalTests name make v).flatMap RowTest.operands =
      places (Filter.optionalValues name v) := by
  cases v with
  | none => rfl
  | some v => simp [Filter.optionalTests, Filter.optionalValues, places, h]

theorem tests_operands (f : Filter) (bounds : Option String × Option String) :
    (f.tests bounds).flatMap RowTest.operands = Bindings.project :: places (f.values bounds) := by
  rw [Filter.tests, Filter.values, places_append, places_append, places_append,
    List.flatMap_append, List.flatMap_append, List.flatMap_append, List.flatMap_cons,
    optional_operands _ _ _ fun _ => rfl, optional_operands _ _ _ fun _ => rfl,
    optional_operands _ _ _ fun _ => rfl, optional_operands _ _ _ fun _ => rfl]
  rfl

theorem number_holes (name : String) (n : Option Nat) (h : Sql.Wordlike name) :
    (((numberPlace name n).map Placeholder.render).toList.flatMap fun e =>
      Sql.holes (phrase e)) = (places (numberValue name n)).map Placeholder.inner := by
  cases n with
  | none => rfl
  | some n =>
    have hr := Sql.phrase_reads (Sql.reads_placeholder ⟨name, .word⟩ h)
    simp [numberPlace, numberValue, places, hr, Sql.holes_hole, Value.type]

theorem kind_lacks {c : Char} (hc : c = '?' ∨ c = '\x7b') (kind : Kind) :
    ∀ e ∈ kind.columns ++ kind.groups ++ kind.order, Sql.Lacks c e := by
  have known := known_lacks hc
  have hu : Sql.Lacks c Kind.columns.users := by
    have hp : Sql.Lacks c Sql.personCount :=
      Sql.Lacks.append (Sql.Lacks.append (known _ (by decide)) (resolved_person_lacks hc))
        (known _ (by decide))
    exact Sql.Lacks.append hp (known _ (by decide))
  cases kind with
  | events limit offset =>
    simp only [Kind.columns, Kind.groups, Kind.order, List.cons_append, List.nil_append,
      List.append_nil, List.forall_mem_cons]
    refine ⟨known _ (by decide), known _ (by decide), known _ (by decide), known _ (by decide),
      known _ (by decide), resolved_column_lacks hc, known _ (by decide), known _ (by decide),
      known _ (by decide), known _ (by decide), by simp⟩
  | totals =>
    simp only [Kind.columns, Kind.groups, Kind.order, List.append_nil, List.forall_mem_cons]
    exact ⟨known _ (by decide), hu, known _ (by decide), by simp⟩
  | trend g =>
    have hb : Sql.Lacks c g.bucket := by cases g <;> exact known _ (by decide)
    simp only [Kind.columns, Kind.groups, Kind.order, List.cons_append, List.nil_append,
      List.forall_mem_cons]
    exact ⟨Sql.Lacks.append hb (known _ (by decide)), known _ (by decide), hu,
      known _ (by decide), known _ (by decide), by simp⟩
  | top limit =>
    simp only [Kind.columns, Kind.groups, Kind.order, List.cons_append, List.nil_append,
      List.forall_mem_cons]
    exact ⟨known _ (by decide), known _ (by decide), hu, known _ (by decide), known _ (by decide),
      known _ (by decide), by simp⟩

theorem report_placeholders (kind : Kind) (f : Filter) (bounds : Option String × Option String) :
    Sql.placeholders (select kind (f.tests bounds)).render =
      some (Bindings.project :: places (values kind f bounds)) := by
  have known (es : List String) (h : es ⊆ kind.columns ++ kind.groups ++ kind.order) :
      (es.flatMap fun e => Sql.holes (phrase e)) = [] :=
    List.flatMap_eq_nil_iff.mpr fun e he => Sql.holes_free (kind_lacks (.inr rfl) kind e (h he))
  have ho : kind.ownTests.flatMap RowTest.operands = [] := by cases kind <;> rfl
  have hs := report_selects kind f bounds
  have number {name : String} {n : Option Nat} (h : Sql.Wordlike name) :
      ∀ p ∈ places (numberValue name n), p.Proper := by
    intro p hp
    cases n with
    | none => simp [numberValue, places] at hp
    | some n =>
      obtain rfl : p = ⟨name, (Value.word n).type⟩ := by
        simpa [numberValue, places] using hp
      exact h
  have hp : (select kind (f.tests bounds)).parts = kind.columns ++ [Sql.eventsTable] ++
      (f.tests bounds ++ kind.ownTests).map RowTest.render ++ kind.groups ++ [] ++ kind.order ++
        ((numberPlace "limit" kind.limit?).map Placeholder.render).toList ++
          ((numberPlace "offset" kind.offset?).map Placeholder.render).toList := rfl
  refine Sql.reads_placeholders (Sql.selects_text hs) ?_ ?_
  · rw [Sql.select_holes, hp, values, places_append, places_append]
    simp only [List.flatMap_append, number_holes _ _ (by decide : Sql.Wordlike "limit"),
      number_holes _ _ (by decide : Sql.Wordlike "offset"), Sql.rows_holes _ hs.proper, ho,
      tests_operands, List.flatMap_singleton, List.flatMap_nil, Sql.events_holes,
      known kind.columns (by simp), known kind.groups (by simp), known kind.order (by simp)]
    simp
  · intro p hp
    rw [values, places_append, places_append, List.append_assoc, ← List.cons_append,
      ← tests_operands, List.mem_append, List.mem_append] at hp
    rcases hp with hp | hp | hp
    · obtain ⟨t, ht, hp⟩ := List.mem_flatMap.mp hp
      exact Sql.row_operands_proper (tests_proper f bounds t ht) p hp
    · exact number (by decide) p hp
    · exact number (by decide) p hp

theorem values_sublist (kind : Kind) (f : Filter) (bounds : Option String × Option String) :
    ((values kind f bounds).map Prod.fst).Sublist
      ["event_name", "distinct_id", "from", "to", "limit", "offset"] := by
  have optional (name : String) (v : Option Value) :
      ((Filter.optionalValues name v).map Prod.fst).Sublist [name] := by
    cases v with
    | none => exact List.nil_sublist _
    | some v => exact List.Sublist.refl _
  have number (name : String) (n : Option Nat) :
      ((numberValue name n).map Prod.fst).Sublist [name] := by
    cases n with
    | none => exact List.nil_sublist _
    | some n => exact List.Sublist.refl _
  have hf := (((optional "event_name" ((Filter.nonBlank f.event).map .text)).append
    (optional "distinct_id" ((Filter.nonBlank f.distinctId).map .text))).append
      (optional "from" (bounds.1.map .time))).append (optional "to" (bounds.2.map .time))
  have hn := (hf.append (number "limit" kind.limit?)).append (number "offset" kind.offset?)
  simpa [values, Filter.values] using hn

end Report

theorem names_column_lacks {c : Char} (hc : c = '?' ∨ c = '\x7b') :
    Sql.Lacks c Discovery.namesColumn := by
  have known := known_lacks hc
  have hb (bag : Sql.Bag) : Sql.Lacks c bag.column := by
    cases bag <;> exact known _ (by decide)
  exact Sql.Lacks.append (Sql.Lacks.append (Sql.Lacks.append
    (Sql.Lacks.append (known _ (by decide)) (hb .event)) (known _ (by decide)))
      (hb .person)) (known _ (by decide))

theorem discovery_placeholders (days limit : Nat) : Sql.placeholders Discovery.select.render =
    some (Bindings.project :: places (Discovery.values days limit)) := by
  have hs := Discovery.selects
  have hc : Sql.holes (phrase Discovery.namesColumn) = [] :=
    Sql.holes_free (names_column_lacks (.inr rfl))
  have hn : Sql.holes (phrase "property") = [] :=
    Sql.holes_free (Sql.lacks_chars _ (by decide))
  have hl := Sql.phrase_reads (Sql.reads_placeholder ⟨"limit", .word⟩ (by decide))
  have hp : Discovery.select.parts = [Discovery.namesColumn, Sql.eventsTable] ++
      Discovery.tests.map RowTest.render ++ ["property", (⟨"limit", .word⟩ : Placeholder).render] :=
    rfl
  have hw : ∀ p ∈ Bindings.project :: places (Discovery.values 0 0), p.Proper := by decide
  refine Sql.reads_placeholders (Sql.selects_text hs) ?_ hw
  rw [Sql.select_holes, hp, List.flatMap_append, List.flatMap_append,
    Sql.rows_holes _ hs.proper]
  simp [hc, hn, hl, Sql.events_holes, Sql.holes_hole, Discovery.tests, Discovery.values, places,
    Value.type, RowTest.operands, Sql.Start.operands, Sql.Moment.operands]

/-- The numbered names of a listing are those of the fresh values, each in its place. -/
def Numbered (ps : List Placeholder) (counter : Nat) : Prop :=
  ∃ stems, stems.length = counter ∧
    (ps.filter Placeholder.isNumbered).map Placeholder.name = freshNames stems

/-- Statements and their parameters fit. Only the date at which windows end may be bound for
nothing, namely in the listing or insertion of a definition without windows. -/
theorem statements_closed (projectId : String) :
    (∀ dateTo b, Bindings.start projectId dateTo = .ok b → ∀ d allowed,
      (∀ q, d.listing allowed b = .ok q → ∃ p c ps, (d.compile allowed).Yields b p c ∧
        q.params = c.params ∧ ClosedBy q ps (IdleDate d dateTo) ∧ Numbered ps c.counter) ∧
      ∀ cohort m, d.materialization cohort allowed b = .ok m →
        (∃ ps, ClosedBy m.insert ps (IdleDate d dateTo)) ∧ Closed m.clear ∧ Closed m.count) ∧
    ∀ q, ProjectStatement projectId q → Closed q := by
  constructor
  · intro dateTo b h d allowed
    have hb := started h
    constructor
    · intro q hq
      obtain ⟨p, c, ps, stems, hy, hp, hc, hl, hn⟩ := listing_closed hb hq
      exact ⟨p, c, ps, hy, hp, hc, stems, hl, hn⟩
    · intro cohort m hm
      exact ⟨insert_closed hb hm, stored_closed hb hm⟩
  · intro q hq
    cases hq with
    | @report kind filter _ h =>
      obtain ⟨b, bounds, hb, _, rfl⟩ := (Report.query_ok _ _ _ _).mp h
      have hs := Report.values_sublist kind filter bounds
      refine named_closed hb (hs.nodup (by decide)) ?_
        (Report.report_placeholders kind filter bounds)
      exact fun hm => absurd (hs.subset hm) (by decide)
    | @discovery days limit _ h =>
      obtain ⟨b, _, hb, rfl⟩ := (Discovery.query_ok _ _ _ _).mp h
      have hd : ((Discovery.values days limit).map Prod.fst) = ["days", "limit"] := rfl
      refine named_closed hb ?_ ?_ (discovery_placeholders days limit)
      · rw [hd]
        decide
      · rw [hd]
        decide

def regularsDefinition : Definition :=
  ⟨.and, [.leaf (.event ⟨"login", .atLeast, 3, 30, [.equal "plan" "pro"]⟩)]⟩

theorem regulars_listed : ∃ b q,
    Bindings.start "6f1c2b8e-3d4a-4e5f-8a9b-0c1d2e3f4a5b" (some "2025-03-01") = .ok b ∧
      regularsDefinition.listing (.ofNames ["plan"]) b = .ok q := by
  obtain ⟨b, hb⟩ : ∃ b, Bindings.start "6f1c2b8e-3d4a-4e5f-8a9b-0c1d2e3f4a5b"
      (some "2025-03-01") = .ok b :=
    start_exists (Uuid.grouped_known (by decide)) (by decide)
  obtain ⟨t, ht⟩ := Option.isSome_iff_exists.mp (started hb).date
  obtain ⟨params, counter, date⟩ := b
  obtain rfl : date = some t := ht
  exact ⟨_, _, hb, rfl⟩

theorem regulars_closed : ∃ (b c : Bindings) (q : Query) (ps : List Placeholder),
    Bindings.start "6f1c2b8e-3d4a-4e5f-8a9b-0c1d2e3f4a5b" (some "2025-03-01") = .ok b ∧
    regularsDefinition.listing (.ofNames ["plan"]) b = .ok q ∧
    ClosedBy q ps (IdleDate regularsDefinition (some "2025-03-01")) ∧
    q.params = c.params ∧ Numbered ps c.counter := by
  obtain ⟨b, q, hb, hq⟩ := regulars_listed
  obtain ⟨_, c, ps, _, hp, hc, hn⟩ :=
    ((statements_closed "6f1c2b8e-3d4a-4e5f-8a9b-0c1d2e3f4a5b").1 _ b hb regularsDefinition
      (.ofNames ["plan"])).1 q hq
  exact ⟨b, c, q, ps, hb, hq, hc, hp, hn⟩

end CohortQuery
