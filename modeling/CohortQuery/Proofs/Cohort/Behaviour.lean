import CohortQuery.Proofs.Closed
import CohortQuery.Proofs.Cohort.Reading
import CohortQuery.Proofs.Cohort.Refusal
import CohortQuery.Proofs.Cohort.Shape
import CohortQuery.Proofs.Store.Tables
import Mathlib.Data.Finset.Card
import Mathlib.Order.Bounds.Basic

/-!
# Persons by their behaviour

Which persons a condition on events describes, said without any statement, and that the statement
a condition is compiled to selects exactly these. A window is a number of days up to a moment; a
first event lies in it only if no earlier one lies before it.
-/

set_option autoImplicit false

namespace CohortQuery

open Binder (Yields)
open Sql (Formula Fragment GroupTest Moment PropertyTest RowTest Subquery)
open Store (Engine Event Tables)

def Scalar.isValueOf (E : Engine) (json property : String) : Scalar → Bool
  | text s => E.text json property = s
  | number x => (E.numeric json property).any fun y => y.equal x
  | flag b => E.raw json property = flagText b

/-- Whether the property is as the comparison says. -/
def PropertyOperator.holds (E : Engine) (json property : String) (operand : Option Json) :
    PropertyOperator → Bool
  | equals negated =>
    match Scalar.ofOperand property operand with
    | .ok s => s.isValueOf E json property != negated
    | .error _ => false
  | ordered order =>
    match numberOperand property operand with
    | .ok x => (E.numeric json property).any fun y => order.holds y x
    | .error _ => false
  | contains negated =>
    match Scalar.ofOperand property operand with
    | .ok s => decide (s.toText.toList <:+: (E.text json property).toList) != negated
    | .error _ => false
  | isSet negated => decide (E.raw json property ≠ "") != negated

def EventFilter.holds (E : Engine) (f : EventFilter) (e : Event) : Bool :=
  f.operator.holds E e.properties f.property f.operand

def occurrences (project event id : String) (events : List Event) : List Event :=
  events.filter fun e => e.distinctId = id && e.project = project && e.name = event

/-- Those of the last `days` days before `stop` that pass the filters. -/
def recent (E : Engine) (stop : Int) (days : Nat) (filters : List EventFilter)
    (events : List Event) : List Event :=
  events.filter fun e => stop - days * dayMillis ≤ e.millis && e.millis ≤ stop &&
    filters.all fun f => f.holds E e

/-- The person with the id behaves as the condition says, when windows end at `stop`. Conditions
without events say nothing of behaviour. -/
def Leaf.Describes (E : Engine) (project : String) (stop : Int) (events : List Event)
    (id : String) : Leaf → Prop
  | event c =>
    let es := recent E stop c.windowDays c.filters (occurrences project c.event id events)
    1 ≤ es.length ∧ c.operator.holds es.length c.count = true
  | firstTime c =>
    ∃ first, IsLeast {t | ∃ e ∈ occurrences project c.event id events, e.millis = t} first ∧
      stop - c.windowDays * dayMillis ≤ first ∧ first ≤ stop
  | regular c =>
    let es := recent E stop c.windowDays c.filters (occurrences project c.event id events)
    c.minPeriods ≤ (es.map fun e => c.period.firstDay e.millis).toFinset.card
  | person _ | member _ => False

/-- The moment at which windows end, by the store form of a date. -/
def upperBound (E : Engine) : Option String → Int
  | some t => E.instant t
  | none => E.now

def Params.Extends (params base : Params) : Prop :=
  ∀ name v, base.get? name = some v → params.get? name = some v

theorem place_read {α : Type} {params : Params} {stem : String} {n : Nat} {v : Value}
    (h : params.Has (Bindings.numbered n [(stem, v)])) (f : Value → Option α) :
    params.read f (place stem n v.type) = f v :=
  read_bound (h (Bindings.freshName stem n, v) (by simp [Bindings.numbered])) f

section

variable {E : Engine} {params : Params}

theorem test_truth {property : String} {operand : Option Json} {n : Nat} {op : PropertyOperator}
    {t : PropertyTest} {vs : Literals} (h : TestLowers property operand n op t vs)
    (hp : params.Has (Bindings.numbered n vs)) (json : String) :
    t.truth E params json property = some true ↔ op.holds E json property operand = true := by
  cases h with
  | @text s negated hs =>
    have hr : params.read Value.text? (place "coh_prop" n .text) = some s := place_read hp _
    simp only [PropertyTest.truth, hr, PropertyOperator.holds, hs, Scalar.isValueOf,
      Option.map_some, Option.some.injEq]
  | @number x negated hs =>
    have hr : params.read Value.real? (place "coh_prop" n .real) = some x := place_read hp _
    simp only [PropertyTest.truth, hr, PropertyOperator.holds, hs, Scalar.isValueOf,
      Option.bind_some]
    cases E.numeric json property with
    | none => cases negated <;> simp
    | some y => simp
  | @flag b negated hs =>
    have hr : params.read Value.text? (place "coh_prop" n .text) = some (flagText b) :=
      place_read hp _
    simp only [PropertyTest.truth, hr, PropertyOperator.holds, hs, Scalar.isValueOf,
      Option.map_some, Option.some.injEq]
  | @ordered x order hs =>
    have hr : params.read Value.real? (place "coh_prop" n .real) = some x := place_read hp _
    simp only [PropertyTest.truth, hr, PropertyOperator.holds, hs, Option.bind_some]
    cases E.numeric json property <;> simp
  | @like s negated hs he =>
    have hr : params.read Value.text? (place "coh_prop" n .text) =
        some (Text.Like.containing s.toText) := place_read hp _
    have hm : Text.Like.matchesAll (Text.Like.containing s.toText).toList
        (E.text json property).toList =
          decide (s.toText.toList <:+: (E.text json property).toList) := by
      rw [Bool.eq_iff_iff, Text.Like.matches_containing, decide_eq_true_eq]
    simp only [PropertyTest.truth, hr, PropertyOperator.holds, hs, hm, Option.map_some,
      Option.some.injEq]
  | isSet negated =>
    simp only [PropertyTest.truth, PropertyOperator.holds, Option.some.injEq]

theorem filters_truth {allowed : AllowList} {n : Nat} {fs : List EventFilter}
    {ts : List RowTest} {vs : Literals} (h : FiltersLower allowed n fs ts vs)
    (hp : params.Has (Bindings.numbered n vs)) (e : Event) :
    (∀ t ∈ ts, t.truth E params e = some true) ↔ fs.all (fun f => f.holds E e) = true := by
  induction h with
  | nil => simp
  | @cons n f fs key t ts us vs hk ht _ ih =>
    rw [Bindings.numbered_append, has_append] at hp
    have hf : RowTest.truth E params e (.property ⟨.event, key⟩ t) = some true ↔
        f.holds E e = true := by
      change t.truth E params e.properties key.text = some true ↔ _
      rw [check_text hk]
      exact test_truth ht hp.1 e.properties
    rw [List.forall_mem_cons, List.all_cons, Bool.and_eq_true, ih hp.2, hf]

/-- What the parameters of a statement say of its project and of the end of its windows. -/
structure Scoped (params : Params) (project : String) (dateTo : Option String) : Prop where
  project : params.read Value.uuid? Bindings.project = some project
  date : ∀ t ∈ dateTo, params.read Value.time? Bindings.dateToPlaceholder = some t

variable {project : String} {b : Bindings} (hs : Scoped params project b.dateTo)

include hs

theorem stop_at : b.stop.at E params = some (upperBound E b.dateTo) := by
  unfold Bindings.stop
  cases hd : b.dateTo with
  | none => rfl
  | some t => simp [Moment.at, hs.date t (by simp [hd]), upperBound]

theorem start_at {n days : Nat}
    (hp : params.Has (Bindings.numbered n [("coh_window", .word days)])) :
    (windowStart b.stop n).at E params = some (upperBound E b.dateTo - days * dayMillis) := by
  have hr : params.read Value.word? (place "coh_window" n .word) = some days := place_read hp _
  simp [windowStart, Sql.Start.at, stop_at hs, hr]

theorem scope_truth {n : Nat} {event : String}
    (hp : params.Has (Bindings.numbered n [("coh_event", .text event)])) (e : Event) :
    (∀ t ∈ scopeRows n, t.truth E params e = some true) ↔
      e.project = project ∧ e.name = event := by
  have hr : params.read Value.text? (place "coh_event" n .text) = some event := place_read hp _
  simp [scopeRows, RowTest.truth, hs.project, hr]

theorem window_truth {n days : Nat} {event : String}
    (hp : params.Has (Bindings.numbered n (windowLiterals event days))) (e : Event) :
    (∀ t ∈ windowRows b.stop n, t.truth E params e = some true) ↔
      (e.project = project ∧ e.name = event) ∧
        upperBound E b.dateTo - days * dayMillis ≤ e.millis ∧ e.millis ≤ upperBound E b.dateTo := by
  have hw : windowLiterals event days =
      [("coh_event", .text event)] ++ [("coh_window", .word days)] :=
    rfl
  rw [hw, Bindings.numbered_append, has_append] at hp
  have hb : (windowStart b.stop (n + 1)).at E params =
      some (upperBound E b.dateTo - days * dayMillis) :=
    start_at hs hp.2
  rw [windowRows, List.forall_mem_append, scope_truth hs hp.1]
  simp [RowTest.truth, hb, stop_at hs]

omit hs in
theorem occurrences_filter (P : Event → Prop) [DecidablePred P] (event id : String)
    (events : List Event) (rows : List RowTest)
    (h : ∀ e, (∀ t ∈ rows, t.truth E params e = some true) ↔
      (e.project = project ∧ e.name = event) ∧ P e) :
    (events.filter fun e => e.distinctId = id ∧ ∀ t ∈ rows, t.truth E params e = some true) =
      (occurrences project event id events).filter fun e => P e := by
  rw [occurrences, List.filter_filter]
  apply List.filter_congr
  intro e _
  rw [Bool.eq_iff_iff]
  simp only [h, decide_eq_true_eq, Bool.and_eq_true]
  tauto

theorem recent_rows {n days : Nat} {event : String} {allowed : AllowList}
    {fs : List EventFilter} {ts : List RowTest} {vs : Literals}
    (hf : FiltersLower allowed (n + 2) fs ts vs)
    (hp : params.Has (Bindings.numbered n (windowLiterals event days ++ vs)))
    (id : String) (events : List Event) :
    (events.filter fun e => e.distinctId = id ∧
        ∀ t ∈ windowRows b.stop n ++ ts, t.truth E params e = some true) =
      recent E (upperBound E b.dateTo) days fs (occurrences project event id events) := by
  rw [Bindings.numbered_append, has_append] at hp
  have hr (e : Event) : (∀ t ∈ windowRows b.stop n ++ ts, t.truth E params e = some true) ↔
      (e.project = project ∧ e.name = event) ∧
        (upperBound E b.dateTo - days * dayMillis ≤ e.millis && e.millis ≤ upperBound E b.dateTo &&
          fs.all fun f => f.holds E e) = true := by
    rw [List.forall_mem_append, window_truth hs hp.1, filters_truth hf hp.2, and_assoc]
    simp [and_assoc]
  rw [occurrences_filter _ event id events _ hr]
  simp only [recent, Bool.decide_eq_true]

omit hs in
theorem counted_has {n days : Nat} {event stem : String} {v : Value} {vs : Literals}
    (hp : params.Has (Bindings.numbered n (windowLiterals event days ++ vs ++ [(stem, v)]))) :
    params.Has (Bindings.numbered n (windowLiterals event days ++ vs)) ∧
      params.Has (Bindings.numbered (n + 2 + vs.length) [(stem, v)]) := by
  have hn : n + (windowLiterals event days ++ vs).length = n + 2 + vs.length := by
    rw [List.length_append, ← Nat.add_assoc]
    rfl
  rwa [Bindings.numbered_append, has_append, hn] at hp

omit hs in
theorem first_least (es : List Event) (first : Int) :
    (es.map Event.millis).min? = some first ↔ IsLeast {t | ∃ e ∈ es, e.millis = t} first := by
  rw [List.min?_eq_some_iff]
  simp [IsLeast, lowerBounds]

omit hs in
theorem timed_performed {allowed : AllowList} {stop : Moment} {n : Nat} {l : Leaf} {f : Fragment}
    {vs : Literals} (h : LeafLowers allowed stop n l f vs) (hl : l.isTimed = true) :
    ∃ rows groups, f = .performed rows groups := by
  cases h with
  | person => cases hl
  | member => cases hl
  | event | regular | firstTime => exact ⟨_, _, rfl⟩

/-- A condition on events is lowered to a statement that selects the persons it describes. -/
theorem leaf_selects {allowed : AllowList} {n : Nat} {l : Leaf} {rows : List RowTest}
    {groups : List GroupTest} {vs : Literals}
    (h : LeafLowers allowed b.stop n l (.performed rows groups) vs)
    (hp : params.Has (Bindings.numbered n vs)) (tables : Tables) (id : String) :
    id ∈ (Subquery.performed (Sql.allOf rows) (Sql.allOf groups)).ids E params tables ↔
      l.Describes E project (upperBound E b.dateTo) tables.events id := by
  cases h with
  | @event c ts ws hc hw he hf =>
    obtain ⟨hp, hr⟩ := counted_has hp
    have hn : params.read Value.word? (place "coh_count" (n + 2 + ws.length) .word) =
        some c.count := place_read hr _
    rw [Sql.performed_ids, recent_rows hs hf hp]
    simp [GroupTest.truth, hn, Leaf.Describes, Nat.one_le_iff_ne_zero]
  | @regular c ts ws hm hw he hf =>
    obtain ⟨hp, hr⟩ := counted_has hp
    have hn : params.read Value.word? (place "coh_min" (n + 2 + ws.length) .word) =
        some c.minPeriods := place_read hr _
    rw [Sql.performed_ids, recent_rows hs hf hp]
    simp only [List.mem_singleton, forall_eq, GroupTest.truth, hn, Option.map_some,
      Option.some.injEq, decide_eq_true_eq, Leaf.Describes, List.card_toFinset]
    -- No period is left without an event, so the group is there if it has enough of them.
    refine and_iff_right_of_imp ?_
    rintro hk he
    rw [he] at hk
    exact hm (Nat.le_zero.mp hk)
  | @firstTime c hw he =>
    have hl : windowLiterals c.event c.windowDays =
        [("coh_event", .text c.event)] ++ [("coh_window", .word c.windowDays)] := rfl
    rw [hl, Bindings.numbered_append, has_append] at hp
    have hb : (windowStart b.stop (n + 1)).at E params =
        some (upperBound E b.dateTo - c.windowDays * dayMillis) := start_at hs hp.2
    have hr (e : Event) : (∀ t ∈ scopeRows n, t.truth E params e = some true) ↔
        (e.project = project ∧ e.name = c.event) ∧ True := by
      rw [scope_truth hs hp.1, and_true]
    rw [Sql.performed_ids, occurrences_filter _ c.event id tables.events _ hr]
    simp only [decide_true, List.filter_true, List.forall_mem_cons, GroupTest.truth, hb,
      stop_at hs, Option.bind_eq_bind, Option.bind_some, Leaf.Describes, ← first_least]
    cases hm : ((occurrences project c.event id tables.events).map Event.millis).min? with
    | none => simp
    | some first =>
      have hn : occurrences project c.event id tables.events ≠ [] := by
        intro he
        simp [he] at hm
      simp [hn]

end

theorem start_date {projectId : String} {dateTo : Option String} {b : Bindings}
    (h : Bindings.start projectId dateTo = .ok b) : b.dateTo = dateTo.bind Time.startText := by
  obtain ⟨u, _, ⟨rfl, rfl⟩ | ⟨_, t, rfl, ht, rfl⟩⟩ := (start_ok _ _ _).mp h
  · rfl
  · exact ht.symm

theorem compiled_scoped {projectId : String} {dateTo : Option String} {b : Bindings}
    (h : Bindings.start projectId dateTo = .ok b) {params : Params} (vs : Literals)
    (hp : params.Extends (b.bindAll vs).params) :
    ∃ u, Uuid.read (Text.trim projectId) = some u ∧ Scoped params u.render b.dateTo := by
  have bound {name : String} {v : Value} (hn : name.toList.getLast?.any Char.isDigit = false)
      (hv : b.params.get? name = some v) : params.get? name = some v :=
    hp name v ((Bindings.bind_all_get b name vs hn).trans hv)
  obtain ⟨u, hu, hg⟩ := context_project (start_context h)
  obtain ⟨w, hw⟩ := (started h).params
  refine ⟨u, hu, read_bound (bound (by decide) hg) Value.uuid?, ?_⟩
  intro t ht
  have hd := (hw _ _).mpr (.inr ⟨t, ht, rfl, rfl⟩)
  exact read_bound (bound (by decide) hd) Value.time?

theorem extends_has {params : Params} {b : Bindings} {vs : Literals}
    (h : params.Extends (b.bindAll vs).params) : params.Has (Bindings.numbered b.counter vs) :=
  fun e he => h e.1 e.2 (Bindings.bind_all_has b vs e he)

/-- A condition on events is compiled to a statement that selects the persons whose behaviour
it describes, whatever is bound before it and after it. It is refused for a count of zero just
if it describes no person. -/
theorem behaviour_selected :
    (∀ (projectId : String) (dateTo : Option String) (b : Bindings),
      Bindings.start projectId dateTo = .ok b → ∀ (us : Literals) (allowed : AllowList) (l : Leaf)
        (f : Fragment) (c : Bindings), l.isTimed = true →
      (l.compile allowed).Yields (b.bindAll us) f c →
      ∃ u text q, Uuid.read (Text.trim projectId) = some u ∧
        f.render = "distinct_id IN (" ++ text ++ ")" ∧ Subquery.read text = some q ∧
        ∀ (E : Engine) (params : Params), params.Extends c.params → ∀ tables id,
          id ∈ q.ids E params tables ↔ l.Describes E u.render
            (upperBound E (dateTo.bind Time.startText)) tables.events id) ∧
    ∀ (allowed : AllowList) (c : EventCondition) (b : Bindings),
      (∃ e, e.OnlyZero ∧ ((c.compile allowed).outcome b).1 = .error e) ↔
        ¬ ∃ k, 1 ≤ k ∧ c.operator.holds k c.count = true := by
  refine ⟨?_, zero_refused⟩
  intro projectId dateTo b hb us allowed l f c hl hy
  obtain ⟨vs, hv, rfl⟩ := (yields_leaf allowed l _ _ f).mp hy
  obtain ⟨rows, groups, rfl⟩ := timed_performed hv hl
  obtain ⟨u, hu, _⟩ := context_project (start_context hb)
  have hp := leaf_proper (stop_proper _) hv
  have hd : (b.bindAll us).dateTo = dateTo.bind Time.startText :=
    (Bindings.bind_all_date b us).trans (start_date hb)
  have hr : Subquery.read (Fragment.performedSelect rows groups).render =
      some (.performed (Sql.allOf rows) (Sql.allOf groups)) := by
    rw [Subquery.read, Sql.read_reads (Sql.select_text hp rfl), Option.bind_some]
    exact Sql.performed_read hp (leaf_full hv)
  refine ⟨u, _, _, hu, rfl, hr, fun E params hx tables id => ?_⟩
  have hx' := hx
  rw [← Bindings.bind_all_append] at hx'
  obtain ⟨w, hw, hs⟩ := compiled_scoped hb (us ++ vs) hx'
  obtain rfl : u = w := Option.some.inj (hu.symm.trans hw)
  rw [← Bindings.bind_all_date b us] at hs
  rw [← hd]
  exact leaf_selects hs hv (extends_has hx) tables id

def noonEngine : Engine where
  now := 1740830400000
  instant _ := 1740830400000
  text json key := if json = "\x7b\"plan\":\"pro\"\x7d" ∧ key = "plan" then "pro" else ""
  raw json key := if json = "\x7b\"plan\":\"pro\"\x7d" ∧ key = "plan" then "\"pro\"" else ""
  number _ _ := none
  parse _ := none

/-- Logins at the beginning and the end of a window of thirty days, and one before it. -/
def loginTables (project : String) : Tables where
  events := [1740830400000, 1738238400000, 1738238399999].map fun millis =>
    ⟨project, "login", "track", "ann", "\x7b\"plan\":\"pro\"\x7d", "", millis⟩
  members := []

theorem logins_selected : ∃ (u : Uuid) (b c : Bindings) (f : Fragment) (text : String) (q : Subquery),
    Bindings.start "6f1c2b8e-3d4a-4e5f-8a9b-0c1d2e3f4a5b" (some "2025-03-01T12:00:00Z") = .ok b ∧
    (Leaf.compile (.ofNames ["plan"])
      (.event ⟨"login", .equal, 2, 30, [.equal "plan" "pro"]⟩)).Yields b f c ∧
    f.render = "distinct_id IN (" ++ text ++ ")" ∧ Subquery.read text = some q ∧
    "ann" ∈ q.ids noonEngine c.params (loginTables u.render) ∧
    "bob" ∉ q.ids noonEngine c.params (loginTables u.render) := by
  obtain ⟨b, hb⟩ : ∃ b, Bindings.start "6f1c2b8e-3d4a-4e5f-8a9b-0c1d2e3f4a5b"
      (some "2025-03-01T12:00:00Z") = .ok b :=
    start_exists (Uuid.grouped_known (by decide)) (by decide)
  obtain ⟨t, ht⟩ := Option.isSome_iff_exists.mp (started hb).date
  have hd := start_date hb
  obtain ⟨params, counter, date⟩ := b
  obtain rfl : date = some t := ht
  obtain ⟨u, text, q, _, hf, hq, hs⟩ := behaviour_selected.1 _ _ _ hb [] (.ofNames ["plan"])
    (.event ⟨"login", .equal, 2, 30, [.equal "plan" "pro"]⟩) _ _ rfl rfl
  have hx := hs noonEngine _ (fun _ _ h => h) (loginTables u.render)
  rw [← hd] at hx
  refine ⟨u, _, _, _, text, q, hb, rfl, hf, hq, (hx _).mpr ?_, fun h => ?_⟩
  · simp [Leaf.Describes, upperBound, noonEngine, occurrences, recent, loginTables,
      EventFilter.holds, EventFilter.equal, PropertyOperator.holds, Scalar.ofOperand,
      Scalar.isValueOf, CountOperator.holds, dayMillis]
  · have hn := (hx _).mp h
    simp [Leaf.Describes, occurrences, recent, loginTables] at hn

end CohortQuery
