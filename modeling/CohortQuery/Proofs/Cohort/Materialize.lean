import CohortQuery.Proofs.Cohort.Agreement
import CohortQuery.Proofs.Cohort.Behaviour
import CohortQuery.Proofs.Store.Operands
import CohortQuery.Proofs.Store.Serve
import CohortQuery.Store.Operation

/-!
# Storing a cohort

What a materialization leaves in the store. Its members are removed before they are looked for
again, so the ones that are stored are those that the definition has without them. A definition
that asks for the members of other cohorts only is not touched by that.
-/

set_option autoImplicit false

namespace CohortQuery

open Binder (Yields)
open Sql (Formula Fragment Predicate RowTest Statement Subquery Test allOf selected)
open Store (CohortRequest Engine Event Executes Membership StoredCohort Succeeds Table Tables)

/-- The persons that the statement lists, if it is a listing. -/
def Query.persons (E : Engine) (tables : Tables) (q : Query) : List String :=
  match Statement.read q.sql with
  | some (.listing condition) =>
    ((selected E q.params tables condition).map Event.distinctId).dedup
  | _ => []

theorem persons_listing {q : Query} {condition : Formula Test}
    (h : Statement.read q.sql = some (.listing condition)) (E : Engine) (tables : Tables) :
    q.persons E tables =
      ((selected E q.params tables condition).map Event.distinctId).dedup := by
  rw [Query.persons, h]

/-- The definition asks who the stored members of the cohort are. -/
def Definition.AsksFor (d : Definition) (cohort : String) : Prop :=
  ∃ c, .member c ∈ d.root.leaves ∧ c.cohort = cohort

namespace Store.Tables

def without (tables : Tables) (project cohort : String) : Tables :=
  { tables with
    members := tables.members.filter fun m => ¬(m.project = project ∧ m.cohort = cohort) }

def storing (tables : Tables) (project cohort : String) (ids : List String) : Tables :=
  { tables with members := tables.members ++ ids.map fun id => ⟨project, cohort, id⟩ }

def cohortRows (tables : Tables) (project cohort : String) : List Membership :=
  tables.members.filter fun m => m.project = project ∧ m.cohort = cohort

end Store.Tables

theorem membership_injective (project cohort : String) :
    Function.Injective fun id => (⟨project, cohort, id⟩ : Membership) := by
  intro a b h
  exact congrArg Membership.distinctId h

theorem without_rows (tables : Tables) (project cohort : String) :
    (tables.without project cohort).cohortRows project cohort = [] := by
  rw [Tables.cohortRows, Tables.without, List.filter_filter, List.filter_eq_nil_iff]
  simp

theorem storing_without (tables : Tables) (project cohort : String) (ids : List String) :
    (tables.storing project cohort ids).without project cohort =
      tables.without project cohort := by
  simp [Tables.storing, Tables.without]

theorem without_without (tables : Tables) (project cohort : String) :
    (tables.without project cohort).without project cohort = tables.without project cohort := by
  simp [Tables.without]

theorem storing_rows (tables : Tables) (project cohort : String) (ids : List String) :
    ((tables.without project cohort).storing project cohort ids).cohortRows project cohort =
      ids.map fun id => ⟨project, cohort, id⟩ := by
  have ho := without_rows tables project cohort
  have hn : ((ids.map fun id => (⟨project, cohort, id⟩ : Membership)).filter fun m =>
      m.project = project ∧ m.cohort = cohort) = ids.map fun id => ⟨project, cohort, id⟩ := by
    rw [List.filter_eq_self]
    simp
  rw [Tables.cohortRows] at ho ⊢
  rw [Tables.storing, List.filter_append, ho, hn, List.nil_append]

theorem stored_number (tables : Tables) (project cohort : String) {ids : List String}
    (h : ids.Nodup) :
    (((tables.without project cohort).storing project cohort ids).members.filter fun m =>
      m.project = project ∧ m.cohort = cohort).dedup.length = ids.length := by
  have hr := storing_rows tables project cohort ids
  rw [Tables.cohortRows] at hr
  rw [hr, (h.map (membership_injective project cohort)).dedup, List.length_map]

section

variable {E : Engine} {params : Params} {project : String}
  (hp : params.read Value.uuid? Bindings.project = some project)

include hp

theorem member_rows_truth {cohort : String} {p : Placeholder}
    (hc : params.read Value.text? p = some cohort) (m : Membership) :
    (allOf [.inProject, .equal .cohortId p]).value (RowTest.memberTruth params m) = some true ↔
      m.project = project ∧ m.cohort = cohort := by
  rw [Sql.all_of_true]
  simp [RowTest.memberTruth, hp, hc]

theorem member_ids {cohort : String} {p : Placeholder}
    (hc : params.read Value.text? p = some cohort) (tables : Tables) (id : String) :
    id ∈ (Subquery.members (allOf [.inProject, .equal .cohortId p])).ids E params tables ↔
      ⟨project, cohort, id⟩ ∈ tables.members := by
  simp only [Subquery.ids, List.mem_map, List.mem_filter, decide_eq_true_eq,
    member_rows_truth hp hc]
  constructor
  · rintro ⟨m, ⟨hm, rfl, rfl⟩, rfl⟩
    exact hm
  · exact fun hm => ⟨_, ⟨hm, rfl, rfl⟩, rfl⟩

theorem fragment_without {allowed : AllowList} {stop : Sql.Moment} {k : Nat} {l : Leaf}
    {f : Fragment} {us : Literals} (hl : LeafLowers allowed stop k l f us)
    (hu : params.Has (Bindings.numbered k us)) {cohort : String}
    (ho : ∀ c, l = .member c → c.cohort ≠ cohort) (tables : Tables) (e : Event) :
    f.typed.value (Test.truth E params (tables.without project cohort) e) =
      f.typed.value (Test.truth E params tables e) := by
  cases hl with
  | event | regular | firstTime | person => rfl
  | @member c =>
    have hc : params.read Value.text? (place "coh_cohort" k .text) = some c.cohort :=
      place_read hu _
    have hn : c.cohort ≠ cohort := ho c rfl
    have hi : e.distinctId ∈ (Subquery.members (allOf [.inProject, .equal .cohortId
          (place "coh_cohort" k .text)])).ids E params (tables.without project cohort) ↔
        e.distinctId ∈ (Subquery.members (allOf [.inProject, .equal .cohortId
          (place "coh_cohort" k .text)])).ids E params tables := by
      rw [member_ids hp hc, member_ids hp hc, Tables.without, List.mem_filter]
      simp [hn]
    cases c.negated <;>
      simp only [Fragment.typed, Formula.value, Test.truth, hi]

end

mutual

theorem node_leaves {allowed : AllowList} {stop : Sql.Moment} {room n : Nat} {m : Condition}
    {p : Predicate} {vs : Literals} (h : NodeLowers allowed stop room n m p vs) :
    ∀ f ∈ p.leaves, ∃ l ∈ m.leaves, ∃ k us, LeafLowers allowed stop k l f us ∧
      Bindings.numbered k us ⊆ Bindings.numbered n vs := by
  intro f hf
  cases h with
  | leaf h =>
    obtain rfl := List.mem_singleton.mp hf
    exact ⟨_, List.mem_singleton.mpr rfl, n, vs, h, List.Subset.refl _⟩
  | group j h =>
    rw [Tree.leaves_group] at hf ⊢
    exact members_leaves h f hf

theorem members_leaves {allowed : AllowList} {stop : Sql.Moment} {room n : Nat}
    {ms : List Condition} {ps : List Predicate} {vs : Literals}
    (h : MembersLower allowed stop room n ms ps vs) :
    ∀ f ∈ ps.flatMap Tree.leaves, ∃ l ∈ ms.flatMap Tree.leaves, ∃ k us,
      LeafLowers allowed stop k l f us ∧ Bindings.numbered k us ⊆ Bindings.numbered n vs := by
  intro f hf
  cases h with
  | nil => simp at hf
  | cons h hr =>
    rw [Bindings.numbered_append]
    rcases List.mem_append.mp hf with hf | hf
    · obtain ⟨l, hl, k, us, hk, hs⟩ := node_leaves h f hf
      exact ⟨l, List.mem_append_left _ hl, k, us, hk, fun e he => List.mem_append_left _ (hs he)⟩
    · obtain ⟨l, hl, k, us, hk, hs⟩ := members_leaves hr f hf
      exact ⟨l, List.mem_append_right _ hl, k, us, hk,
        fun e he => List.mem_append_right _ (hs he)⟩

end

/-- A definition that was compiled, for which the project and all its values are bound. -/
structure Compiled (r : CohortRequest) (u : Uuid) (p : Predicate) (c : Bindings) : Prop where
  project : Uuid.read (Text.trim r.projectId) = some u
  proper : p.Proper
  full : ∀ f ∈ p.leaves, f.Full
  bound : ∀ q ∈ Bindings.project :: p.operands, (c.params.get? q.name).isSome
  free : c.params.get? cohortName = none
  read : c.params.read Value.uuid? Bindings.project = some u.render
  leaves : ∀ f ∈ p.leaves, ∃ l ∈ r.definition.root.leaves, ∃ stop k us,
    LeafLowers r.allowed stop k l f us ∧ c.params.Has (Bindings.numbered k us)

theorem yields_compiled {r : CohortRequest} {b c : Bindings} {p : Predicate}
    (hb : Bindings.start r.projectId r.dateTo = .ok b)
    (hy : (r.definition.compile r.allowed).Yields b p c) : ∃ u, Compiled r u p c := by
  obtain ⟨vs, hl, rfl⟩ := (yields_node r.allowed Limits.depth r.definition.root b c p).mp hy
  have hs := started hb
  obtain ⟨u, hu, hg⟩ := context_project (start_context hb)
  have hr := (Bindings.bind_all_get b _ vs (by decide)).trans hg
  refine ⟨u, hu, node_proper (stop_proper b) hl, node_full hl, ?_, cohort_free hs vs,
    read_bound hr Value.uuid?, ?_⟩
  · intro q hq
    rw [hs.counter] at hl
    obtain ⟨v, hv, _⟩ := operands_bound hs (node_operands hl) (fun _ _ h => h) q hq
    rw [hv]
    rfl
  · intro f hf
    obtain ⟨l, hm, k, us, hk, hu⟩ := node_leaves hl f hf
    exact ⟨l, hm, b.stop, k, us, hk, fun e he => Bindings.bind_all_has b vs e (hu he)⟩

section

variable {r : CohortRequest} {u : Uuid} {p : Predicate} {c : Bindings} (h : Compiled r u p c)

include h

theorem listing_persons (E : Engine) (tables : Tables) :
    (c.finish (listingSelect p).render).persons E tables =
      ((selected E c.params tables (restrictedTo p)).map Event.distinctId).dedup := by
  have hr : Statement.read (c.finish (listingSelect p).render).sql =
      some (.listing (restrictedTo p)) := listing_read h.proper h.full
  exact persons_listing hr E tables

theorem restricted_true (E : Engine) (tables : Tables) (e : Event) :
    (restrictedTo p).value (Test.truth E c.params tables e) = some true ↔
      e.project = u.render ∧ p.typed.value (Test.truth E c.params tables e) = some true := by
  rw [restrictedTo, Formula.value, Sql.and_true_iff]
  simp [Formula.value, Test.truth, RowTest.truth, h.read]

theorem mem_persons (E : Engine) (tables : Tables) (id : String) :
    id ∈ (c.finish (listingSelect p).render).persons E tables ↔
      ∃ e ∈ tables.events, e.project = u.render ∧ e.distinctId = id ∧
        p.typed.value (Test.truth E c.params tables e) = some true := by
  rw [listing_persons h, List.mem_dedup, List.mem_map]
  simp only [selected, List.mem_filter, decide_eq_true_eq, restricted_true h]
  constructor
  · rintro ⟨e, ⟨he, hp, ht⟩, hi⟩
    exact ⟨e, he, hp, hi, ht⟩
  · rintro ⟨e, he, hp, hi, ht⟩
    exact ⟨e, ⟨he, hp, ht⟩, hi⟩

/-- Whether a definition that asks for other cohorts only selects a person does not depend on
the members of this one. -/
theorem persons_without {cohort : String} (ho : ¬r.definition.AsksFor cohort) (E : Engine)
    (tables : Tables) :
    (c.finish (listingSelect p).render).persons E (tables.without u.render cohort) =
      (c.finish (listingSelect p).render).persons E tables := by
  have hs : selected E c.params (tables.without u.render cohort) (restrictedTo p) =
      selected E c.params tables (restrictedTo p) := by
    apply List.filter_congr
    intro e _
    have ht : p.typed.value (Test.truth E c.params (tables.without u.render cohort) e) =
        p.typed.value (Test.truth E c.params tables e) := by
      refine Sql.typed_congr fun f hf => ?_
      obtain ⟨l, hl, stop, k, us, hk, hu⟩ := h.leaves f hf
      refine fragment_without h.read hk hu ?_ tables e
      rintro m rfl hm
      exact ho ⟨m, hl, hm⟩
    have hv : (restrictedTo p).value (Test.truth E c.params (tables.without u.render cohort) e) =
        (restrictedTo p).value (Test.truth E c.params tables e) := by
      rw [restrictedTo, Formula.value, Formula.value, ht]
      rfl
    rw [hv]
  rw [listing_persons h, listing_persons h, hs]

theorem selected_named (cohort : String) (E : Engine) (tables : Tables) :
    selected E (c.bindNamed cohortName (.text cohort)).2.params tables (restrictedTo p) =
      selected E c.params tables (restrictedTo p) := by
  have ha : Sql.AgreeOn ([Bindings.project] ++ p.operands)
      (c.bindNamed cohortName (.text cohort)).2.params c.params := by
    intro q hq
    refine get_set_other _ _ _ _ ?_
    intro hn
    have hb := h.bound q hq
    rw [hn, h.free] at hb
    cases hb
  obtain ⟨hp, ho⟩ := Sql.agree_append ha
  apply List.filter_congr
  intro e _
  have hr : RowTest.inProject.truth E (c.bindNamed cohortName (.text cohort)).2.params e =
      RowTest.inProject.truth E c.params e :=
    Sql.row_agree (t := .inProject) hp e
  have ht : p.typed.value (Test.truth E (c.bindNamed cohortName (.text cohort)).2.params tables e) =
      p.typed.value (Test.truth E c.params tables e) :=
    Sql.typed_congr fun f hf => Sql.fragment_agree (Sql.agree_flat ho hf) E tables e
  have hv : (restrictedTo p).value
        (Test.truth E (c.bindNamed cohortName (.text cohort)).2.params tables e) =
      (restrictedTo p).value (Test.truth E c.params tables e) := by
    rw [restrictedTo, Formula.value, Formula.value, Formula.value, Formula.value, ht, Test.truth,
      Test.truth, hr]
  rw [hv]

theorem cohort_read (cohort : String) :
    let params := (c.bindNamed cohortName (.text cohort)).2.params
    params.read Value.uuid? Bindings.project = some u.render ∧
      params.read Value.text? cohortPlaceholder = some cohort := by
  have hn : Bindings.project.name ≠ cohortName := by decide
  refine ⟨?_, read_bound (get_set c.params cohortName (.text cohort)) Value.text?⟩
  rw [← h.read, Sql.read_agree]
  exact List.forall_mem_singleton.mpr (get_set_other _ _ _ _ hn)

theorem stored_truth (cohort : String) (m : Membership) :
    (allOf storedRows).value (RowTest.memberTruth (Materialization.scopeParams
      (c.bindNamed cohortName (.text cohort)).2.params) m) = some true ↔
      m.project = u.render ∧ m.cohort = cohort := by
  obtain ⟨hp, hc⟩ := cohort_read h cohort
  have hs : Sql.AgreeOn (storedRows.flatMap RowTest.operands) (Materialization.scopeParams
      (c.bindNamed cohortName (.text cohort)).2.params)
      (c.bindNamed cohortName (.text cohort)).2.params := by
    intro q hq
    have ho : storedRows.flatMap RowTest.operands = [Bindings.project, cohortPlaceholder] := rfl
    rw [scope_params, if_pos]
    simp only [ho, List.mem_cons, List.not_mem_nil, or_false] at hq
    rcases hq with rfl | rfl
    · exact .inl rfl
    · exact .inr rfl
  rw [Sql.all_of_congr fun t ht => Sql.member_agree (Sql.agree_flat hs ht) m]
  exact member_rows_truth hp hc m

theorem clear_executes (cohort : String) (E : Engine) (tables left : Tables) (t : Table) :
    Executes E (Materialization.scopeParams (c.bindNamed cohortName (.text cohort)).2.params) tables
      (.clear (allOf storedRows)) left t ↔
      left = tables.without u.render cohort ∧ t = .nothing := by
  have hm : (tables.members.filter fun m => (allOf storedRows).value (RowTest.memberTruth
        (Materialization.scopeParams (c.bindNamed cohortName (.text cohort)).2.params) m) ≠
          some true) =
      tables.members.filter fun m => ¬(m.project = u.render ∧ m.cohort = cohort) := by
    apply List.filter_congr
    intro m _
    simp only [ne_eq, stored_truth h]
  constructor
  · intro he
    cases he
    rw [hm]
    exact ⟨rfl, rfl⟩
  · rintro ⟨rfl, rfl⟩
    rw [Tables.without, ← hm]
    exact .clear _

theorem insert_executes (cohort : String) (E : Engine) (tables left : Tables) (t : Table) :
    Executes E (c.bindNamed cohortName (.text cohort)).2.params tables
      (.insert cohortPlaceholder (restrictedTo p)) left t ↔
      left = tables.storing u.render cohort
        ((c.finish (listingSelect p).render).persons E tables) ∧ t = .nothing := by
  obtain ⟨hp, hc⟩ := cohort_read h cohort
  have hm : ((selected E (c.bindNamed cohortName (.text cohort)).2.params tables
        (restrictedTo p)).map fun e => (⟨e.project, cohort, e.distinctId⟩ : Membership)).dedup =
      ((c.finish (listingSelect p).render).persons E tables).map fun id =>
        ⟨u.render, cohort, id⟩ := by
    rw [selected_named h, listing_persons h,
      ← List.dedup_map_of_injective (membership_injective u.render cohort), List.map_map]
    congr 1
    apply List.map_congr_left
    intro e he
    have ht := of_decide_eq_true (List.mem_filter.mp he).2
    rw [((restricted_true h E tables e).mp ht).1]
    rfl
  constructor
  · intro he
    cases he with
    | insert hid =>
      obtain rfl := Option.some.inj (hc.symm.trans hid)
      rw [hm]
      exact ⟨rfl, rfl⟩
  · rintro ⟨rfl, rfl⟩
    rw [Tables.storing, ← hm]
    exact .insert hc

theorem clear_succeeds (cohort : String) (E : Engine) (seconds : Nat) (tables left : Tables)
    (v : Unit) :
    Succeeds E (Store.Operation.within seconds (Store.Call.execute
      (stored p (c.bindNamed cohortName (.text cohort)).2).clear)) tables v left ↔
      seconds ≠ 0 ∧ left = tables.without u.render cohort := by
  have he (now : Int) (t : Table) := clear_executes h cohort { E with now } tables left t
  rw [Store.succeeds_within, Store.execute_succeeds
    (stored p (c.bindNamed cohortName (.text cohort)).2).clear verbatim_clear clear_read]
  simp only [stored, he, exists_and_left, exists_eq, and_true, exists_const]

theorem insert_succeeds (cohort : String) (E : Engine) (seconds : Nat) (tables left : Tables)
    (v : Unit) :
    Succeeds E (Store.Operation.within seconds (Store.Call.execute
      (stored p (c.bindNamed cohortName (.text cohort)).2).insert)) tables v left ↔
      seconds ≠ 0 ∧ ∃ now : Int, left = tables.storing u.render cohort
        ((c.finish (listingSelect p).render).persons { E with now } tables) := by
  have he (now : Int) (t : Table) := insert_executes h cohort { E with now } tables left t
  rw [Store.succeeds_within, Store.execute_succeeds
    (stored p (c.bindNamed cohortName (.text cohort)).2).insert (verbatim_insert h.proper)
    (insert_read h.proper h.full)]
  simp only [stored, Bindings.finish, he, exists_and_left, exists_eq, and_true]

theorem count_succeeds (cohort : String) (E : Engine) (seconds : Nat) (tables left : Tables)
    (n : Nat) :
    Succeeds E (Store.Operation.within seconds (Store.Call.fetchOne Table.numbers?
      (stored p (c.bindNamed cohortName (.text cohort)).2).count)) tables n left ↔
      seconds ≠ 0 ∧ n = (tables.members.filter fun m =>
        m.project = u.render ∧ m.cohort = cohort).dedup.length ∧ left = tables := by
  have ht := stored_truth h cohort
  rw [Store.succeeds_within, Store.fetch_count_succeeds
    (stored p (c.bindNamed cohortName (.text cohort)).2).count verbatim_count count_read]
  simp only [stored, ht]

end

theorem request_listing (r : CohortRequest) (q : Query) : r.listing = .ok q ↔
    ∃ b p c, Bindings.start r.projectId r.dateTo = .ok b ∧
      (r.definition.compile r.allowed).Yields b p c ∧ q = c.finish (listingSelect p).render := by
  rw [CohortRequest.listing, Binder.except_bind]
  simp only [listing_ok, exists_and_left]

theorem request_materialization (r : CohortRequest) (cohort : String) (m : Materialization) :
    r.materialization cohort = .ok m ↔ Text.isBlankText cohort = false ∧
      ∃ b p c, Bindings.start r.projectId r.dateTo = .ok b ∧
        (r.definition.compile r.allowed).Yields b p c ∧
        m = stored p (c.bindNamed cohortName (.text cohort)).2 := by
  have hn : checkNotBlank cohortName cohort = .ok () ↔ Text.isBlankText cohort = false := by
    cases h : Text.isBlankText cohort <;> simp [checkNotBlank, h]
  rw [CohortRequest.materialization, Binder.except_bind]
  simp only [materialization_ok, hn]
  constructor
  · rintro ⟨b, hb, hc, p, c, hy, hm⟩
    exact ⟨hc, b, p, c, hb, hy, hm⟩
  · rintro ⟨hc, b, p, c, hb, hy, hm⟩
    exact ⟨b, hb, hc, p, c, hy, hm⟩

/-- The operation succeeds just if the cohort is stored anew, from tables without it. -/
theorem materialize_succeeds (E : Engine) (seconds : Nat) (r : CohortRequest) (cohort : String)
    (tables left : Tables) (s : StoredCohort) :
    Succeeds E (Store.materialize seconds r cohort) tables s left ↔
      seconds ≠ 0 ∧ Text.isBlankText cohort = false ∧ ∃ (u : Uuid) (q : Query) (now : Int),
        Uuid.read (Text.trim r.projectId) = some u ∧ r.listing = .ok q ∧
        left = (tables.without u.render cohort).storing u.render cohort
          (q.persons { E with now } (tables.without u.render cohort)) ∧
        s = ⟨cohort, (q.persons { E with now } (tables.without u.render cohort)).length⟩ := by
  have hd {u : Uuid} {p : Predicate} {c : Bindings} (h : Compiled r u p c) (now : Int) :
      ((c.finish (listingSelect p).render).persons { E with now }
        (tables.without u.render cohort)).Nodup := by
    rw [listing_persons h]
    exact List.nodup_dedup _
  simp only [Store.materialize, Store.succeeds_bind, Store.succeeds_compile,
    Store.succeeds_note, Store.succeeds_pure]
  constructor
  · rintro ⟨m, _, ⟨hm, rfl⟩, _, t, ht, _, t', ht', n, t'', hn, _, _, rfl, rfl, rfl⟩
    obtain ⟨hb, b, p, c, hs, hy, rfl⟩ := (request_materialization r cohort m).mp hm
    obtain ⟨u, hc⟩ := yields_compiled hs hy
    obtain ⟨hz, rfl⟩ := (clear_succeeds hc cohort E seconds _ _ _).mp ht
    obtain ⟨_, now, rfl⟩ := (insert_succeeds hc cohort E seconds _ _ _).mp ht'
    obtain ⟨_, rfl, rfl⟩ := (count_succeeds hc cohort E seconds _ _ _).mp hn
    rw [stored_number _ _ _ (hd hc now)]
    exact ⟨hz, hb, u, _, now, hc.project, (request_listing r _).mpr ⟨b, p, c, hs, hy, rfl⟩,
      rfl, rfl⟩
  · rintro ⟨hz, hb, u, q, now, hu, hq, rfl, rfl⟩
    obtain ⟨b, p, c, hs, hy, rfl⟩ := (request_listing r q).mp hq
    obtain ⟨w, hc⟩ := yields_compiled hs hy
    obtain rfl : u = w := Option.some.inj (hu.symm.trans hc.project)
    have hm := (request_materialization r cohort _).mpr ⟨hb, b, p, c, hs, hy, rfl⟩
    have hn := (stored_number tables u.render cohort (hd hc now)).symm
    exact ⟨_, _, ⟨hm, rfl⟩, (), _, (clear_succeeds hc cohort E seconds _ _ _).mpr ⟨hz, rfl⟩,
      (), _, (insert_succeeds hc cohort E seconds _ _ _).mpr ⟨hz, now, rfl⟩,
      _, _, (count_succeeds hc cohort E seconds _ _ _).mpr ⟨hz, hn, rfl⟩, (), _, rfl, rfl, rfl⟩

/-- A materialization that succeeds replaces the stored members of its cohort by the persons that
its definition has in the tables without them, says how many these are, and leaves the rest as it
was. If the definition does not ask for the cohort itself, these are the persons that it had
before. -/
theorem materialize_replaces (E : Engine) (seconds : Nat) (r : CohortRequest) (cohort : String)
    (tables left : Tables) (s : StoredCohort)
    (h : Succeeds E (Store.materialize seconds r cohort) tables s left) :
    ∃ (u : Uuid) (q : Query) (now : Int), Uuid.read (Text.trim r.projectId) = some u ∧
      r.listing = .ok q ∧
      left = (tables.without u.render cohort).storing u.render cohort
        (q.persons { E with now } (tables.without u.render cohort)) ∧
      s = ⟨cohort, (q.persons { E with now } (tables.without u.render cohort)).length⟩ ∧
      (¬r.definition.AsksFor cohort → q.persons { E with now } (tables.without u.render cohort) =
        q.persons { E with now } tables) := by
  obtain ⟨_, _, u, q, now, hu, hq, hl, hs⟩ := (materialize_succeeds E seconds r cohort _ _ _).mp h
  obtain ⟨b, p, c, hb, hy, rfl⟩ := (request_listing r q).mp hq
  obtain ⟨w, hc⟩ := yields_compiled hb hy
  obtain rfl : u = w := Option.some.inj (hu.symm.trans hc.project)
  exact ⟨u, _, now, hu, hq, hl, hs, fun ho => persons_without hc ho _ _⟩

theorem member_lowers {allowed : AllowList} {stop : Sql.Moment} {room n : Nat} {j : Junction}
    {cohort : String} {p : Predicate} {vs : Literals} (h : NodeLowers allowed stop room n
      (.group j [.leaf (.member ⟨cohort, false⟩)]) p vs) :
    p = .group j [.leaf (.member [.inProject, .equal .cohortId (place "coh_cohort" n .text)]
      false)] ∧ vs = [("coh_cohort", .text cohort)] := by
  cases h with
  | group j h =>
    cases h with
    | cons h hr =>
      cases hr
      cases h with
      | leaf h =>
        cases h
        exact ⟨rfl, rfl⟩

theorem members_persons {r : CohortRequest} {q : Query} {u : Uuid} {j : Junction}
    {cohort : String} (hu : Uuid.read (Text.trim r.projectId) = some u)
    (hq : r.listing = .ok q) (hd : r.definition = ⟨j, [.leaf (.member ⟨cohort, false⟩)]⟩)
    (E : Engine) (tables : Tables) (id : String) :
    id ∈ q.persons E tables ↔ (∃ e ∈ tables.events, e.project = u.render ∧ e.distinctId = id) ∧
      ⟨u.render, cohort, id⟩ ∈ tables.members := by
  obtain ⟨b, p, c, hb, hy, rfl⟩ := (request_listing r q).mp hq
  obtain ⟨w, hc⟩ := yields_compiled hb hy
  obtain rfl : u = w := Option.some.inj (hu.symm.trans hc.project)
  obtain ⟨vs, hl, rfl⟩ := (yields_node r.allowed Limits.depth r.definition.root b c p).mp hy
  rw [hd] at hl
  obtain ⟨rfl, rfl⟩ := member_lowers hl
  have hp : (b.bindAll [("coh_cohort", .text cohort)]).params.read Value.text?
      (place "coh_cohort" b.counter .text) = some cohort :=
    place_read (Bindings.bind_all_has b _) _
  have ht (e : Event) : (Predicate.typed (.group j [.leaf (.member [.inProject, .equal .cohortId
        (place "coh_cohort" b.counter .text)] false)])).value
          (Test.truth E (b.bindAll [("coh_cohort", .text cohort)]).params tables e) =
      some (decide (e.distinctId ∈ (Subquery.members (allOf [.inProject, .equal .cohortId
        (place "coh_cohort" b.counter .text)])).ids E
          (b.bindAll [("coh_cohort", .text cohort)]).params tables)) := by
    cases j <;> rfl
  rw [mem_persons hc]
  simp only [ht, Option.some.injEq, decide_eq_true_eq, member_ids hc.read hp]
  constructor
  · rintro ⟨e, he, hu, rfl, hm⟩
    exact ⟨⟨e, he, hu, rfl⟩, hm⟩
  · rintro ⟨⟨e, he, hu, rfl⟩, hm⟩
    exact ⟨e, he, hu, rfl, hm⟩

def vipTables : Tables where
  events := [⟨"6f1c2b8e-3d4a-4e5f-8a9b-0c1d2e3f4a5b", "login", "track", "ann", "", "", 0⟩]
  members := [⟨"6f1c2b8e-3d4a-4e5f-8a9b-0c1d2e3f4a5b", "vip", "ann"⟩]

def vipRequest : CohortRequest where
  projectId := "6f1c2b8e-3d4a-4e5f-8a9b-0c1d2e3f4a5b"
  definition := ⟨.and, [.leaf (.member ⟨"vip", false⟩)]⟩
  dateTo := none
  allowed := .ofNames []

theorem vip_project : (Uuid.read (Text.trim vipRequest.projectId)).map Uuid.render =
    some "6f1c2b8e-3d4a-4e5f-8a9b-0c1d2e3f4a5b" :=
  Uuid.grouped_render rfl

theorem vip_listing : ∃ q, vipRequest.listing = .ok q := by
  obtain ⟨b, hb⟩ : ∃ b, Bindings.start vipRequest.projectId none = .ok b :=
    start_exists (Uuid.grouped_known (by decide)) (by simp)
  exact ⟨_, (request_listing vipRequest _).mpr ⟨b, _, _, hb, rfl, rfl⟩⟩

theorem vip_stored : ∃ (u : Uuid) (q : Query), Uuid.read (Text.trim vipRequest.projectId) = some u ∧
    vipRequest.listing = .ok q ∧ "ann" ∈ q.persons noonEngine vipTables ∧
    Succeeds noonEngine (Store.materialize 30 vipRequest "vip") vipTables ⟨"vip", 0⟩
      { vipTables with members := [] } := by
  obtain ⟨u, hu, hr⟩ := Option.map_eq_some_iff.mp vip_project
  obtain ⟨q, hq⟩ := vip_listing
  have hm (tables : Tables) (id : String) := members_persons hu hq rfl noonEngine tables id
  have hw : vipTables.without u.render "vip" = { vipTables with members := [] } := by
    simp [Tables.without, vipTables, hr]
  have hn : q.persons noonEngine (vipTables.without u.render "vip") = [] := by
    rw [List.eq_nil_iff_forall_not_mem]
    intro id hi
    rw [hw, hm] at hi
    simp at hi
  refine ⟨u, q, hu, hq, (hm _ _).mpr (by simp [vipTables, hr]), ?_⟩
  rw [materialize_succeeds]
  refine ⟨by decide, by decide, u, q, noonEngine.now, hu, hq, ?_, ?_⟩
  · rw [hn, hw]
    rfl
  · rw [hn]
    rfl

theorem vip_copied : ∃ (u : Uuid) (q : Query) (now : Int) (left : Tables) (s : StoredCohort),
    Uuid.read (Text.trim vipRequest.projectId) = some u ∧ vipRequest.listing = .ok q ∧
    Succeeds noonEngine (Store.materialize 30 vipRequest "gold") vipTables s left ∧
    left = (vipTables.without u.render "gold").storing u.render "gold"
      (q.persons { noonEngine with now } vipTables) ∧
    s = ⟨"gold", (q.persons { noonEngine with now } vipTables).length⟩ ∧
    "ann" ∈ q.persons { noonEngine with now } vipTables := by
  obtain ⟨v, hv, hr⟩ := Option.map_eq_some_iff.mp vip_project
  obtain ⟨r, hq⟩ := vip_listing
  have hs := (materialize_succeeds noonEngine 30 vipRequest "gold" vipTables _ _).mpr
    ⟨by decide, by decide, v, r, 0, hv, hq, rfl, rfl⟩
  have ho : ¬vipRequest.definition.AsksFor "gold" := by
    rintro ⟨c, hc, he⟩
    have hl : vipRequest.definition.root.leaves = [.member ⟨"vip", false⟩] := rfl
    rw [hl, List.mem_singleton, Leaf.member.injEq] at hc
    rw [hc] at he
    exact absurd he (by decide)
  obtain ⟨u, q, now, hu, hl, hleft, hst, hsame⟩ :=
    materialize_replaces noonEngine 30 vipRequest "gold" vipTables _ _ hs
  obtain rfl : v = u := Option.some.inj (hv.symm.trans hu)
  have ha := (members_persons hu hl rfl { noonEngine with now } vipTables "ann").mpr
    (by simp [vipTables, hr])
  rw [hsame ho] at hleft hst
  exact ⟨v, q, now, _, _, hu, hl, hs, hleft, hst, ha⟩

end CohortQuery
