import CohortQuery.Proofs.Compiled

/-!
# Isolation of projects

Every `SELECT` and `DELETE` of every compiled statement, at whatever depth, is restricted to
the project by one of the conjuncts of its `WHERE` clause, and the project is the one that
the statement was compiled for.
-/

set_option autoImplicit false

namespace CohortQuery

open Sql (Formula Item Predicate RowTest Select Selects projectTest)

/-- The clause of the scope is true only where the test on the project is. -/
def RestrictedScope (scope : List Item) : Prop :=
  ∃ is φ, Sql.whereOf scope = some is ∧ Sql.formula is = some φ ∧
    .test projectTest ∈ φ.conjuncts ∧
      ∀ ν, φ.eval ν = some true → ∃ k, φ.tests[k]? = some projectTest ∧ ν k = some true

/-- Each word of the text that opens a scope has one, and all are restricted. -/
structure IsolatedText (sql : String) (tokens : List Sql.Token) (is : List Item) : Prop where
  lexed : Sql.lex sql = some tokens
  nested : Sql.read sql = some is
  scopes : Sql.scopesOf is ≠ []
  count : (Sql.scopesOf is).length = tokens.countP Sql.Token.opensScope
  restricted : ∀ scope ∈ Sql.scopesOf is, RestrictedScope scope

/-- The statement is about the one project only. -/
structure Isolated (projectId : String) (q : Query) : Prop where
  text : ∃ tokens is, IsolatedText q.sql tokens is
  project : ∃ u, Uuid.read (Text.trim projectId) = some u ∧
    q.params.get? Bindings.projectName = some (.uuid u.render)

theorem conjunct_restricts {scope is : List Item} {φ : Sql.Reading}
    (hw : Sql.whereOf scope = some is) (hf : Sql.formula is = some φ)
    (hc : .test projectTest ∈ φ.conjuncts) : RestrictedScope scope :=
  ⟨is, φ, hw, hf, hc, fun ν hν => Sql.conjunct_true φ projectTest ν hc hν⟩

theorem tests_conjunct {ts : List RowTest} (h : .inProject ∈ ts) :
    .test projectTest ∈ (Formula.all (ts.map fun t => .test (Sql.bare t.items))).conjuncts := by
  apply Sql.conjuncts_all _ (.test projectTest)
  · rw [← Sql.project_bare]
    exact List.mem_map.mpr ⟨.inProject, h, rfl⟩
  · simp [Formula.conjuncts]

theorem rows_restricted {q : Select} {ts : List RowTest} (h : Selects q ts)
    (hp : .inProject ∈ ts) : RestrictedScope q.scope := by
  obtain ⟨is, hw, hf⟩ := Sql.selects_where h (List.ne_nil_of_mem hp)
  exact conjunct_restricts hw hf (tests_conjunct hp)

theorem text_isolated {b : Bool} {sql : String} {is : List Item} (h : Sql.Reads b sql is)
    (hn : Sql.scopesOf is ≠ []) (hr : ∀ scope ∈ Sql.scopesOf is, RestrictedScope scope) :
    ∃ tokens is, IsolatedText sql tokens is :=
  have hs := Sql.read_reads h
  ⟨_, is, Sql.read_tokens sql is hs, hs, hn, Sql.scopes_count is, hr⟩

theorem select_isolated {q : Select} {ts : List RowTest} (h : Selects q ts)
    (hp : .inProject ∈ ts) : ∃ tokens is, IsolatedText q.render tokens is := by
  have hs := Sql.selects_scopes h
  apply text_isolated (Sql.selects_text h)
  · simp [hs]
  · intro scope hm
    rw [hs, List.mem_singleton] at hm
    rw [hm]
    exact rows_restricted h hp

theorem predicate_restricted {q : Select} {p : Predicate} (hq : Open q) (hp : p.Proper)
    (hl : ∀ f ∈ p.leaves, ∀ s, f.select? = some s → .inProject ∈ f.rows) :
    ∀ scope ∈ Sql.scopesOf (restricted q p).items, RestrictedScope scope := by
  intro scope hs
  rw [restricted_scopes hq hp] at hs
  rcases List.mem_cons.mp hs with rfl | hs
  · obtain ⟨is, hw, hf⟩ := restricted_where hq hp
    exact conjunct_restricts hw hf (by simp [Formula.conjuncts])
  · obtain ⟨f, hf, hs⟩ := List.mem_flatMap.mp hs
    obtain ⟨s, hm, rfl⟩ := List.mem_map.mp hs
    have hsome : f.select? = some s := by simpa using hm
    exact rows_restricted (Sql.fragment_selects (hp f hf) hsome) (hl f hf s hsome)

theorem scope_params_project (params : Params) :
    (Materialization.scopeParams params).get? Bindings.projectName =
      params.get? Bindings.projectName := by
  unfold Materialization.scopeParams Params.get?
  induction params with
  | nil => rfl
  | cons entry rest ih =>
    obtain ⟨k, v⟩ := entry
    by_cases hk : k = Bindings.projectName
    · simp [hk]
    · have hb : (Bindings.projectName == k) = false := by
        simpa using fun h => hk h.symm
      rw [List.lookup_cons, hb]
      by_cases hc : k = cohortName
      · rw [List.filter_cons_of_pos (by simp [hc]), List.lookup_cons, hb]
        exact ih
      · rw [List.filter_cons_of_neg (by simp [hk, hc])]
        exact ih

theorem values_named (kind : Report.Kind) (f : Report.Filter)
    (bounds : Option String × Option String) :
    ∀ v ∈ Report.values kind f bounds, Bindings.projectName ≠ v.1 := by
  have optional (name : String) (v : Option Value) (h : Bindings.projectName ≠ name) :
      ∀ w ∈ Report.Filter.optionalValues name v, Bindings.projectName ≠ w.1 := by
    intro w hw
    cases v with
    | none => simp [Report.Filter.optionalValues] at hw
    | some v =>
      obtain rfl : w = (name, v) := by simpa [Report.Filter.optionalValues] using hw
      exact h
  have number (name : String) (n : Option Nat) (h : Bindings.projectName ≠ name) :
      ∀ w ∈ Report.numberValue name n, Bindings.projectName ≠ w.1 := by
    intro w hw
    cases n with
    | none => simp [Report.numberValue] at hw
    | some n =>
      obtain rfl : w = (name, .word n) := by simpa [Report.numberValue] using hw
      exact h
  intro v hv
  simp only [Report.values, Report.Filter.values, List.mem_append] at hv
  rcases hv with ((((hv | hv) | hv) | hv) | hv) | hv
  · exact optional _ _ (by decide) v hv
  · exact optional _ _ (by decide) v hv
  · exact optional _ _ (by decide) v hv
  · exact optional _ _ (by decide) v hv
  · exact number _ _ (by decide) v hv
  · exact number _ _ (by decide) v hv

theorem for_project_get {projectId : String} {b : Bindings} {vs : List (String × Value)}
    (hb : Bindings.forProject projectId = .ok b) (h : ∀ v ∈ vs, Bindings.projectName ≠ v.1) :
    ∃ u, Uuid.read (Text.trim projectId) = some u ∧
      (b.nameAll vs).params.get? Bindings.projectName = some (.uuid u.render) := by
  obtain ⟨u, hu, hp⟩ := context_project (.new hb)
  exact ⟨u, hu, (name_all_get b _ vs h).trans hp⟩

theorem compiled_project {projectId : String} {b c : Bindings} {d : Definition}
    {allowed : AllowList} {p : Predicate} (hb : Context projectId b)
    (h : (d.compile allowed).Yields b p c) : p.Proper ∧
      (∀ f ∈ p.leaves, ∀ s, f.select? = some s → .inProject ∈ f.rows) ∧
      ∃ u, Uuid.read (Text.trim projectId) = some u ∧
        c.params.get? Bindings.projectName = some (.uuid u.render) := by
  obtain ⟨vs, hl, rfl⟩ := (yields_node allowed Limits.depth d.root b c p).mp h
  obtain ⟨u, hu, hp⟩ := context_project hb
  exact ⟨node_proper (stop_proper b) hl, node_restricted hl, u, hu,
    (Bindings.bind_all_get b _ vs (by decide)).trans hp⟩

theorem stored_project (b : Bindings) (cohort : String) :
    (b.bindNamed cohortName (.text cohort)).2.params.get? Bindings.projectName =
      b.params.get? Bindings.projectName :=
  get_set_other b.params _ _ _ (by decide)

theorem clear_isolated : ∃ tokens is, IsolatedText Materialization.clearText tokens is := by
  apply text_isolated clear_text
  · simp [clear_scopes]
  · intro scope hs
    obtain rfl : scope = clearScope := by simpa [clear_scopes] using hs
    obtain ⟨is, hw, hf⟩ := clear_where
    exact conjunct_restricts hw hf (tests_conjunct (by simp [storedRows]))

theorem count_isolated : ∃ tokens is, IsolatedText Materialization.countText tokens is := by
  rw [count_select]
  exact select_isolated count_selects (by simp [storedRows])

theorem insert_isolated (p : Predicate) (hp : p.Proper)
    (hl : ∀ f ∈ p.leaves, ∀ s, f.select? = some s → .inProject ∈ f.rows) :
    ∃ tokens is, IsolatedText (Materialization.insertText p) tokens is := by
  apply text_isolated (insert_text p hp)
  · rw [insert_scopes, insert_restricted, restricted_scopes insert_open hp]
    simp
  · rw [insert_scopes, insert_restricted]
    exact predicate_restricted insert_open hp hl

theorem listing_isolated (p : Predicate) (hp : p.Proper)
    (hl : ∀ f ∈ p.leaves, ∀ s, f.select? = some s → .inProject ∈ f.rows) :
    ∃ tokens is, IsolatedText (listingSelect p).render tokens is := by
  rw [listing_restricted]
  apply text_isolated (restricted_text listing_open hp)
  · rw [restricted_scopes listing_open hp]
    simp
  · exact predicate_restricted listing_open hp hl

theorem statements_isolated (projectId : String) :
    (∀ b q, Context projectId b → CohortStatement b q → Isolated projectId q) ∧
      ∀ q, ProjectStatement projectId q → Isolated projectId q := by
  constructor
  · intro b q hb hq
    cases hq with
    | listing h =>
      obtain ⟨p, c, hy, rfl⟩ := (listing_ok _ _ _ _).mp h
      obtain ⟨hp, hl, hu⟩ := compiled_project hb hy
      exact ⟨listing_isolated p hp hl, hu⟩
    | clear h =>
      obtain ⟨_, p, c, hy, rfl⟩ := (materialization_ok _ _ _ _ _).mp h
      obtain ⟨_, _, u, hu, hg⟩ := compiled_project hb hy
      refine ⟨clear_isolated, u, hu, ?_⟩
      rw [← stored_project c] at hg
      exact (scope_params_project _).trans hg
    | insert h =>
      obtain ⟨_, p, c, hy, rfl⟩ := (materialization_ok _ _ _ _ _).mp h
      obtain ⟨hp, hl, u, hu, hg⟩ := compiled_project hb hy
      exact ⟨insert_isolated p hp hl, u, hu, (stored_project c _).trans hg⟩
    | count h =>
      obtain ⟨_, p, c, hy, rfl⟩ := (materialization_ok _ _ _ _ _).mp h
      obtain ⟨_, _, u, hu, hg⟩ := compiled_project hb hy
      refine ⟨count_isolated, u, hu, ?_⟩
      rw [← stored_project c] at hg
      exact (scope_params_project _).trans hg
  · intro q hq
    cases hq with
    | @report kind filter _ h =>
      obtain ⟨b, bounds, hb, _, rfl⟩ := (Report.query_ok _ _ _ _).mp h
      have hs := Report.report_selects kind filter bounds
      exact ⟨select_isolated hs (by simp [Report.Filter.tests]),
        for_project_get hb (values_named kind filter bounds)⟩
    | discovery h =>
      obtain ⟨b, _, hb, rfl⟩ := (Discovery.query_ok _ _ _ _).mp h
      refine ⟨select_isolated Discovery.selects (by simp [Discovery.tests]), ?_⟩
      exact for_project_get hb (by simp [Discovery.values, Bindings.projectName])

def differenceDefinition : Definition :=
  ⟨.and, [.leaf (.member ⟨"first", false⟩), .group .or [.leaf (.member ⟨"second", true⟩)]]⟩

theorem difference_isolated :
    ∃ b q, Bindings.start "6f1c2b8e-3d4a-4e5f-8a9b-0c1d2e3f4a5b" none = .ok b ∧
      differenceDefinition.listing .empty b = .ok q ∧
        Isolated "6f1c2b8e-3d4a-4e5f-8a9b-0c1d2e3f4a5b" q := by
  obtain ⟨b, hb⟩ : ∃ b, Bindings.start "6f1c2b8e-3d4a-4e5f-8a9b-0c1d2e3f4a5b" none = .ok b :=
    start_exists (Uuid.grouped_known (by decide)) (by simp)
  obtain ⟨q, hq⟩ : ∃ q, differenceDefinition.listing .empty b = .ok q := ⟨_, rfl⟩
  exact ⟨b, q, hb, hq, (statements_isolated _).1 b q (start_context hb) (.listing hq)⟩

end CohortQuery
