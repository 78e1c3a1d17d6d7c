import CohortQuery.Proofs.Cohort.Lowered
import CohortQuery.Proofs.Report.Lowering
import CohortQuery.Proofs.Uuid

/-!
# Compiled statements

All statements that definitions, reports and the discovery of properties are compiled to,
and the bindings from which a definition may be compiled.
-/

set_option autoImplicit false

namespace CohortQuery

open Sql (Predicate)

/-- Bindings that are made for a project before a definition is compiled. -/
inductive Context (projectId : String) : Bindings → Prop where
  | new {b : Bindings} (h : Bindings.forProject projectId = .ok b) : Context projectId b
  | date {b c : Bindings} (date : String) (hb : Context projectId b)
      (h : b.endingAt date = .ok c) : Context projectId c
  | fresh {b : Bindings} (stem : String) (v : Value) (hb : Context projectId b) :
      Context projectId (b.bind stem v).2
  | named {b : Bindings} (name : String) (v : Value) (hn : name ≠ Bindings.projectName)
      (hb : Context projectId b) : Context projectId (b.bindNamed name v).2

theorem start_context {projectId : String} {dateTo : Option String} {b : Bindings}
    (h : Bindings.start projectId dateTo = .ok b) : Context projectId b := by
  rw [Bindings.start, Binder.except_bind] at h
  obtain ⟨a, ha, h⟩ := h
  cases dateTo with
  | none =>
    obtain rfl : a = b := Except.ok.inj h
    exact .new ha
  | some date => exact .date date (.new ha) h

theorem project_ok (projectId : String) (b : Bindings) :
    Bindings.forProject projectId = .ok b ↔ ∃ u, Uuid.read (Text.trim projectId) = some u ∧
      b = ⟨[(Bindings.projectName, .uuid u.render)], 0, none⟩ := by
  unfold Bindings.forProject
  cases Uuid.read (Text.trim projectId) with
  | none => simp
  | some u =>
    constructor
    · intro h
      exact ⟨u, rfl, (Except.ok.inj h).symm⟩
    · intro h
      obtain ⟨v, hv, rfl⟩ := h
      obtain rfl : u = v := Option.some.inj hv
      rfl

theorem date_ok (date : String) (b c : Bindings) : b.endingAt date = .ok c ↔
    ∃ t, Time.startText date = some t ∧
      c = { (b.bindNamed Bindings.dateToName (.time t)).2 with dateTo := some t } := by
  unfold Bindings.endingAt
  cases Time.startText date with
  | none => simp
  | some t =>
    constructor
    · intro h
      exact ⟨t, rfl, (Except.ok.inj h).symm⟩
    · intro h
      obtain ⟨u, hu, rfl⟩ := h
      obtain rfl : t = u := Option.some.inj hu
      rfl

def Bindings.opened (u : Uuid) : Option String → Bindings
  | none => ⟨[(projectName, .uuid u.render)], 0, none⟩
  | some t => ⟨[(dateToName, .time t), (projectName, .uuid u.render)], 0, some t⟩

@[simp]
theorem opened_date (u : Uuid) (date : Option String) :
    (Bindings.opened u date).dateTo = date := by
  cases date <;> rfl

theorem opened_set (u : Uuid) (t : String) : (Bindings.opened u (some t)).params =
    (Bindings.opened u none).params.set Bindings.dateToName (.time t) :=
  rfl

/-- A statement is begun just when its project and its date, if it has one, can be read. -/
theorem start_ok (projectId : String) (dateTo : Option String) (b : Bindings) :
    Bindings.start projectId dateTo = .ok b ↔ ∃ u, Uuid.read (Text.trim projectId) = some u ∧
      (dateTo = none ∧ b = .opened u none ∨
        ∃ date t, dateTo = some date ∧ Time.startText date = some t ∧ b = .opened u (some t)) := by
  rw [Bindings.start, Binder.except_bind]
  constructor
  · rintro ⟨a, ha, h⟩
    obtain ⟨u, hu, rfl⟩ := (project_ok _ _).mp ha
    refine ⟨u, hu, ?_⟩
    cases dateTo with
    | none => exact .inl ⟨rfl, (Except.ok.inj h).symm⟩
    | some date =>
      obtain ⟨t, ht, rfl⟩ := (date_ok _ _ _).mp h
      exact .inr ⟨date, t, rfl, ht, rfl⟩
  · rintro ⟨u, hu, ⟨rfl, rfl⟩ | ⟨date, t, rfl, ht, rfl⟩⟩
    · exact ⟨_, (project_ok _ _).mpr ⟨u, hu, rfl⟩, rfl⟩
    · exact ⟨_, (project_ok _ _).mpr ⟨u, hu, rfl⟩, (date_ok _ _ _).mpr ⟨t, ht, rfl⟩⟩

theorem start_exists {projectId : String} {dateTo : Option String}
    (hp : (Uuid.read (Text.trim projectId)).isSome)
    (hd : ∀ date ∈ dateTo, (Time.startText date).isSome) :
    ∃ b, Bindings.start projectId dateTo = .ok b := by
  obtain ⟨u, hu⟩ := Option.isSome_iff_exists.mp hp
  cases dateTo with
  | none => exact ⟨_, (start_ok _ _ _).mpr ⟨u, hu, .inl ⟨rfl, rfl⟩⟩⟩
  | some date =>
    obtain ⟨t, ht⟩ := Option.isSome_iff_exists.mp (hd date rfl)
    exact ⟨_, (start_ok _ _ _).mpr ⟨u, hu, .inr ⟨date, t, rfl, ht, rfl⟩⟩⟩

theorem grouped_start {cs : List Char}
    (h : (Uuid.ofGrouped? cs).map Uuid.render = some (String.ofList cs)) :
    Bindings.start (String.ofList cs) none =
      .ok ⟨[(Bindings.projectName, .uuid (String.ofList cs))], 0, none⟩ := by
  obtain ⟨u, hu, hr⟩ := Option.map_eq_some_iff.mp (Uuid.grouped_render h)
  have start : Bindings.start (String.ofList cs) none = .ok (.opened u none) :=
    (start_ok _ _ _).mpr ⟨u, hu, .inl ⟨rfl, rfl⟩⟩
  rwa [Bindings.opened, hr] at start

theorem context_project {projectId : String} {b : Bindings} (h : Context projectId b) :
    ∃ u, Uuid.read (Text.trim projectId) = some u ∧
      b.params.get? Bindings.projectName = some (.uuid u.render) := by
  induction h with
  | new h =>
    obtain ⟨u, hu, rfl⟩ := (project_ok _ _).mp h
    exact ⟨u, hu, by simp [Params.get?]⟩
  | @date b c date _ h ih =>
    obtain ⟨u, hu, hp⟩ := ih
    obtain ⟨t, _, rfl⟩ := (date_ok _ _ _).mp h
    have hn : Bindings.projectName ≠ Bindings.dateToName := by decide
    exact ⟨u, hu, (get_set_other b.params _ _ _ hn).trans hp⟩
  | @fresh b stem v _ ih =>
    obtain ⟨u, hu, hp⟩ := ih
    have hn := Bindings.fresh_name_ne stem Bindings.projectName b.counter (by decide)
    exact ⟨u, hu, (get_set_other b.params _ _ v hn).trans hp⟩
  | @named b name v hn _ ih =>
    obtain ⟨u, hu, hp⟩ := ih
    exact ⟨u, hu, (get_set_other b.params _ _ v hn.symm).trans hp⟩

/-- The statements that store the persons of a predicate, when `b` is bound. -/
def stored (p : Predicate) (b : Bindings) : Materialization where
  clear := ⟨Materialization.clearText, Materialization.scopeParams b.params⟩
  insert := b.finish (Materialization.insertText p)
  count := ⟨Materialization.countText, Materialization.scopeParams b.params⟩

theorem listing_ok (d : Definition) (allowed : AllowList) (b : Bindings) (q : Query) :
    d.listing allowed b = .ok q ↔
      ∃ p c, (d.compile allowed).Yields b p c ∧ q = c.finish (listingSelect p).render := by
  apply Binder.outcome_ok (d.compile allowed) b (fun p c => c.finish (listingSelect p).render)
  · intro p c h
    unfold Binder.outcome at h
    rw [Definition.listing, h]
  · intro e c h
    unfold Binder.outcome at h
    rw [Definition.listing, h]

theorem materialization_ok (d : Definition) (cohort : String) (allowed : AllowList)
    (b : Bindings) (m : Materialization) : d.materialization cohort allowed b = .ok m ↔
      checkNotBlank cohortName cohort = .ok () ∧ ∃ p c, (d.compile allowed).Yields b p c ∧
        m = stored p (c.bindNamed cohortName (.text cohort)).2 := by
  rw [Definition.materialization, Binder.except_bind]
  constructor
  · intro h
    obtain ⟨_, hc, h⟩ := h
    refine ⟨hc, (Binder.outcome_ok (d.compile allowed) b _ m _ ?_ ?_).mp h⟩
    · intro p c hp
      unfold Binder.outcome at hp
      rw [hp]
      rfl
    · intro e c hp
      unfold Binder.outcome at hp
      rw [hp]
  · intro h
    obtain ⟨hc, p, c, hp, rfl⟩ := h
    refine ⟨(), hc, ?_⟩
    unfold Binder.Yields Binder.outcome at hp
    rw [hp]
    rfl

/-- The statements of a definition that is compiled from the bindings `b`. -/
inductive CohortStatement (b : Bindings) : Query → Prop where
  | listing {d : Definition} {allowed : AllowList} {q : Query}
      (h : d.listing allowed b = .ok q) : CohortStatement b q
  | clear {d : Definition} {cohort : String} {allowed : AllowList} {m : Materialization}
      (h : d.materialization cohort allowed b = .ok m) : CohortStatement b m.clear
  | insert {d : Definition} {cohort : String} {allowed : AllowList} {m : Materialization}
      (h : d.materialization cohort allowed b = .ok m) : CohortStatement b m.insert
  | count {d : Definition} {cohort : String} {allowed : AllowList} {m : Materialization}
      (h : d.materialization cohort allowed b = .ok m) : CohortStatement b m.count

/-- The statements that need the project only. -/
inductive ProjectStatement (projectId : String) : Query → Prop where
  | report {kind : Report.Kind} {filter : Report.Filter} {q : Query}
      (h : Report.query projectId kind filter = .ok q) : ProjectStatement projectId q
  | discovery {days limit : Nat} {q : Query}
      (h : Discovery.query projectId days limit = .ok q) : ProjectStatement projectId q

end CohortQuery
