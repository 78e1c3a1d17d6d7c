import CohortQuery.Proofs.Closed
import CohortQuery.Proofs.Sql.Clause

/-!
# Listing and storing one cohort

The listing of a definition and the statements that store its persons are refused for the same
reasons. They ask for the same rows under the same conditions, and their parameters are the same
but for the id of the stored cohort.
-/

set_option autoImplicit false

namespace CohortQuery

open Sql (Predicate Select clauseText)

theorem listing_error (d : Definition) (allowed : AllowList) (b : Bindings) (e : CompileError) :
    d.listing allowed b = .error e ↔ ((d.compile allowed).outcome b).1 = .error e := by
  apply Binder.outcome_error (d.compile allowed) b
    (fun p c => c.finish (listingSelect p).render)
  · intro p c h
    unfold Binder.outcome at h
    rw [Definition.listing, h]
  · intro e c h
    unfold Binder.outcome at h
    rw [Definition.listing, h]

theorem materialization_error (d : Definition) {cohort : String} (allowed : AllowList)
    (b : Bindings) (e : CompileError) (hc : checkNotBlank cohortName cohort = .ok ()) :
    d.materialization cohort allowed b = .error e ↔
      ((d.compile allowed).outcome b).1 = .error e := by
  apply Binder.outcome_error (d.compile allowed) b
    (fun p c => stored p (c.bindNamed cohortName (.text cohort)).2)
  · intro p c h
    unfold Binder.outcome at h
    rw [Definition.materialization, hc]
    dsimp only [bind, Except.bind]
    rw [h]
    rfl
  · intro e c h
    unfold Binder.outcome at h
    rw [Definition.materialization, hc]
    dsimp only [bind, Except.bind]
    rw [h]

/-- The statement reads the events, and from these the ones that satisfy the predicate. -/
structure AsksFor (sql : String) (p : Predicate) : Prop where
  source : clauseText "FROM" sql = some Sql.eventsTable
  condition : clauseText "WHERE" sql = some (restrictionText p)

theorem restricted_asks {b : Bool} {sql : String} {is : List Sql.Item} {q : Select}
    {p : Predicate} (hq : Open q) (hp : p.Proper) (hr : Sql.Reads b sql is)
    (hs : Sql.scopesOf is = Sql.scopesOf (restricted q p).items)
    (ht : ∀ e ∈ q.surroundings, Sql.Clauseless (Sql.phrase e))
    (he : q.source = Sql.eventsTable) : AsksFor sql p := by
  have hw : (restricted q p).clauses.lookup "FROM" = some (Sql.phrase Sql.eventsTable) :=
    congrArg (fun s => some (Sql.phrase s)) he
  have hf := Sql.select_clause (restricted_tidy hp ht hq.conditions)
    (by decide : "FROM" ∈ Sql.clauseWords)
  have hc := Sql.select_clause (restricted_tidy hp ht hq.conditions)
    (by decide : "WHERE" ∈ Sql.clauseWords)
  rw [hw] at hf
  rw [restricted_lookup hp hq.conditions] at hc
  rw [restricted_scopes hq hp] at hs
  refine ⟨Sql.clause_text hr hs hf Sql.events_part.legible ?_,
    Sql.clause_text hr hs hc (restriction_reads hp)
      ⟨rfl, by simp [restrictionItems, Sql.Item.isBlank]⟩⟩
  rw [Sql.events_phrase]
  exact ⟨rfl, rfl⟩

theorem listing_asks {p : Predicate} (hp : p.Proper) : AsksFor (listingSelect p).render p := by
  have hr := restricted_text listing_open hp
  rw [← listing_restricted] at hr
  exact restricted_asks listing_open hp hr (by rw [listing_restricted]) listing_tidy rfl

theorem insert_asks {p : Predicate} (hp : p.Proper) :
    AsksFor (Materialization.insertText p) p := by
  refine restricted_asks insert_open hp (insert_text p hp) ?_ insert_tidy rfl
  rw [insert_scopes, insert_restricted]

/-- The statements `m` store under `cohort` what the listing `q` asks for. -/
structure Agrees (cohort : String) (q : Query) (m : Materialization) : Prop where
  clauses : ∀ keyword ∈ ["FROM", "WHERE"], ∃ t,
    clauseText keyword q.sql = some t ∧ clauseText keyword m.insert.sql = some t
  params : m.insert.params = q.params.set cohortName (.text cohort)
  free : q.params.get? cohortName = none
  scope : ∀ s ∈ [m.clear, m.count], ∀ name, s.params.get? name =
    if name = Bindings.projectName ∨ name = cohortName then m.insert.params.get? name else none
  bound : ∀ name ∈ [Bindings.projectName, cohortName], (m.insert.params.get? name).isSome

theorem stored_agrees {projectId : String} {dateTo : Option String} {b c : Bindings}
    (hb : Bindings.start projectId dateTo = .ok b) {d : Definition} {allowed : AllowList}
    {p : Predicate} (h : (d.compile allowed).Yields b p c) (cohort : String) :
    Agrees cohort (c.finish (listingSelect p).render)
      (stored p (c.bindNamed cohortName (.text cohort)).2) := by
  obtain ⟨vs, rfl, hp, _⟩ := compiled_names_values (started hb) h
  have hl := listing_asks hp
  have hi := insert_asks hp
  refine ⟨?_, rfl, cohort_free (started hb) vs, ?_, ?_⟩
  · intro keyword hk
    simp only [List.mem_cons, List.not_mem_nil, or_false] at hk
    rcases hk with rfl | rfl
    · exact ⟨_, hl.source, hi.source⟩
    · exact ⟨_, hl.condition, hi.condition⟩
  · intro s hs name
    simp only [List.mem_cons, List.not_mem_nil, or_false] at hs
    rcases hs with rfl | rfl
    · exact scope_params _ name
    · exact scope_params _ name
  · intro name hn
    simp only [List.mem_cons, List.not_mem_nil, or_false] at hn
    rcases hn with rfl | rfl
    · obtain ⟨u, _, hu⟩ := context_project (start_context hb)
      have hg := (Bindings.bind_all_get b _ vs (by decide)).trans hu
      exact Option.isSome_iff_exists.mpr ⟨_, (get_set_other _ _ _ _ (by decide)).trans hg⟩
    · exact Option.isSome_iff_exists.mpr ⟨_, get_set _ _ _⟩

/-- From one start a definition is listed and stored with the same success, and what is stored
is what is listed. -/
theorem listing_stored (projectId : String) (dateTo : Option String) (b : Bindings)
    (hb : Bindings.start projectId dateTo = .ok b) (d : Definition) (allowed : AllowList)
    (cohort : String) (hc : Text.isBlankText cohort = false) :
    ((∃ q, d.listing allowed b = .ok q) ↔ ∃ m, d.materialization cohort allowed b = .ok m) ∧
    (∀ e, d.listing allowed b = .error e ↔ d.materialization cohort allowed b = .error e) ∧
    ∀ q m, d.listing allowed b = .ok q → d.materialization cohort allowed b = .ok m →
      Agrees cohort q m := by
  have hn : checkNotBlank cohortName cohort = .ok () := by simp [checkNotBlank, hc]
  refine ⟨⟨?_, ?_⟩, ?_, ?_⟩
  · rintro ⟨q, hq⟩
    obtain ⟨p, c, hy, _⟩ := (listing_ok d allowed b q).mp hq
    exact ⟨_, (materialization_ok d cohort allowed b _).mpr ⟨hn, p, c, hy, rfl⟩⟩
  · rintro ⟨m, hm⟩
    obtain ⟨_, p, c, hy, _⟩ := (materialization_ok d cohort allowed b m).mp hm
    exact ⟨_, (listing_ok d allowed b _).mpr ⟨p, c, hy, rfl⟩⟩
  · intro e
    rw [listing_error, materialization_error d allowed b e hn]
  · intro q m hq hm
    obtain ⟨p, c, hy, rfl⟩ := (listing_ok d allowed b q).mp hq
    obtain ⟨_, p', c', hy', rfl⟩ := (materialization_ok d cohort allowed b m).mp hm
    obtain ⟨hp, rfl⟩ : (.ok p, c) = ((.ok p', c') : Except CompileError Predicate × Bindings) :=
      hy.symm.trans hy'
    exact stored_agrees hb hy cohort

theorem regulars_stored : ∃ b q m,
    Bindings.start "6f1c2b8e-3d4a-4e5f-8a9b-0c1d2e3f4a5b" (some "2025-03-01") = .ok b ∧
    regularsDefinition.listing (.ofNames ["plan"]) b = .ok q ∧
    regularsDefinition.materialization "regulars" (.ofNames ["plan"]) b = .ok m ∧
    Agrees "regulars" q m := by
  obtain ⟨b, q, hb, hq⟩ := regulars_listed
  obtain ⟨hs, _, ha⟩ := listing_stored _ _ b hb regularsDefinition (.ofNames ["plan"]) "regulars"
    (by decide)
  obtain ⟨m, hm⟩ := hs.mp ⟨q, hq⟩
  exact ⟨b, q, m, hb, hq, hm, ha q m hq hm⟩

end CohortQuery
