import CohortQuery.Cohort.Compile
import CohortQuery.Proofs.Binder

/-!
# What a definition is lowered to

The judgments say which condition comes from a leaf or a tree when `n` values are bound
before it, and which values it binds. They are exactly what the compiler yields.
-/

set_option autoImplicit false

namespace CohortQuery

open Binder (Yields yields_bind yields_pure yields_check yields_refuse yields_fresh yields_get)
open Sql (Bag Fragment GroupTest Moment Predicate PropertyTest RowTest)

abbrev Literals := List (String × Value)

/-- The placeholder of the value that is bound behind `n` others. -/
def place (stem : String) (n : Nat) (type : ParamType) : Placeholder :=
  ⟨Bindings.freshName stem n, type⟩

def Bindings.stop (b : Bindings) : Moment :=
  match b.dateTo with
  | some _ => .bound Bindings.dateToPlaceholder
  | none => .now

theorem stop_bind_all (b : Bindings) (vs : Literals) : (b.bindAll vs).stop = b.stop := by
  unfold Bindings.stop
  rw [Bindings.bind_all_date]

theorem yields_literal (stem : String) (v : Value) (b c : Bindings) (p : Placeholder) :
    (Binder.fresh stem v).Yields b p c ↔
      p = place stem b.counter v.type ∧ c = b.bindAll [(stem, v)] :=
  yields_fresh stem v b c p

theorem yields_window_end (b c : Bindings) (m : Moment) :
    windowEnd.Yields b m c ↔ m = b.stop ∧ c = b := by
  unfold windowEnd Bindings.stop
  rw [yields_bind]
  constructor
  · rintro ⟨a, d, hg, hm⟩
    obtain ⟨rfl, rfl⟩ := (yields_get a b d).mp hg
    cases hd : d.dateTo with
    | none =>
      rw [hd] at hm
      exact (yields_pure _ _ _ _).mp hm
    | some t =>
      rw [hd] at hm
      exact (yields_pure _ _ _ _).mp hm
  · rintro ⟨rfl, rfl⟩
    refine ⟨c, c, (yields_get c c c).mpr ⟨rfl, rfl⟩, ?_⟩
    cases c.dateTo with
    | none => exact (yields_pure _ _ _ _).mpr ⟨rfl, rfl⟩
    | some t => exact (yields_pure _ _ _ _).mpr ⟨rfl, rfl⟩

inductive TestLowers (property : String) (operand : Option Json) (n : Nat) :
    PropertyOperator → PropertyTest → Literals → Prop where
  | text {s : String} (negated : Bool) (h : Scalar.ofOperand property operand = .ok (.text s)) :
      TestLowers property operand n (.equals negated)
        (.text negated (place "coh_prop" n .text)) [("coh_prop", .text s)]
  | number {x : Binary64} (negated : Bool)
      (h : Scalar.ofOperand property operand = .ok (.number x)) :
      TestLowers property operand n (.equals negated)
        (.number negated (place "coh_prop" n .real)) [("coh_prop", .real x)]
  | flag {b : Bool} (negated : Bool) (h : Scalar.ofOperand property operand = .ok (.flag b)) :
      TestLowers property operand n (.equals negated)
        (.flag negated (place "coh_prop" n .text)) [("coh_prop", .text (flagText b))]
  | ordered {x : Binary64} (order : Order) (h : numberOperand property operand = .ok x) :
      TestLowers property operand n (.ordered order)
        (.ordered order (place "coh_prop" n .real)) [("coh_prop", .real x)]
  | like {s : Scalar} (negated : Bool) (h : Scalar.ofOperand property operand = .ok s)
      (hs : s.toText.isEmpty = false) :
      TestLowers property operand n (.contains negated)
        (.like negated (place "coh_prop" n .text))
        [("coh_prop", .text (Text.Like.containing s.toText))]
  | isSet (negated : Bool) :
      TestLowers property operand n (.isSet negated) (.isSet negated) []

theorem yields_operand (v : Value) (f : Placeholder → PropertyTest) (b c : Bindings)
    (t : PropertyTest) :
    (bindOperand v >>= fun p => pure (f p)).Yields b t c ↔
      t = f (place "coh_prop" b.counter v.type) ∧ c = b.bindAll [("coh_prop", v)] := by
  simp only [bindOperand, yields_bind, yields_literal, yields_pure]
  constructor
  · rintro ⟨_, _, ⟨rfl, rfl⟩, rfl, rfl⟩
    exact ⟨rfl, rfl⟩
  · rintro ⟨rfl, rfl⟩
    exact ⟨_, _, ⟨rfl, rfl⟩, rfl, rfl⟩

theorem yields_test (property : String) (op : PropertyOperator) (operand : Option Json)
    (b c : Bindings) (t : PropertyTest) :
    (compileTest property op operand).Yields b t c ↔
      ∃ vs, TestLowers property operand b.counter op t vs ∧ c = b.bindAll vs := by
  cases op with
  | equals negated =>
    simp only [compileTest, yields_bind, yields_check]
    constructor
    · rintro ⟨s, _, ⟨hs, rfl⟩, ht⟩
      cases s with
      | text s =>
        obtain ⟨rfl, rfl⟩ := (yields_operand _ _ _ _ _).mp ht
        exact ⟨_, .text negated hs, rfl⟩
      | number x =>
        obtain ⟨rfl, rfl⟩ := (yields_operand _ _ _ _ _).mp ht
        exact ⟨_, .number negated hs, rfl⟩
      | flag f =>
        obtain ⟨rfl, rfl⟩ := (yields_operand _ _ _ _ _).mp ht
        exact ⟨_, .flag negated hs, rfl⟩
    · rintro ⟨vs, h, rfl⟩
      cases h with
      | text _ hs | number _ hs | flag _ hs =>
        exact ⟨_, _, ⟨hs, rfl⟩, (yields_operand _ _ _ _ _).mpr ⟨rfl, rfl⟩⟩
  | ordered order =>
    rw [compileTest, yields_bind]
    simp only [yields_check]
    constructor
    · rintro ⟨x, _, ⟨hx, rfl⟩, ht⟩
      obtain ⟨rfl, rfl⟩ := (yields_operand _ _ _ _ _).mp ht
      exact ⟨_, .ordered order hx, rfl⟩
    · rintro ⟨vs, h, rfl⟩
      cases h with
      | ordered _ hx => exact ⟨_, _, ⟨hx, rfl⟩, (yields_operand _ _ _ _ _).mpr ⟨rfl, rfl⟩⟩
  | contains negated =>
    simp only [compileTest, yields_bind, yields_check]
    constructor
    · rintro ⟨s, _, ⟨hs, rfl⟩, ht⟩
      by_cases he : s.toText.isEmpty
      · rw [if_pos he] at ht
        exact absurd ht (yields_refuse _ _ _ _)
      · rw [if_neg he] at ht
        obtain ⟨rfl, rfl⟩ := (yields_operand _ _ _ _ _).mp ht
        exact ⟨_, .like negated hs (by simpa using he), rfl⟩
    · rintro ⟨vs, h, rfl⟩
      cases h with
      | like _ hs he =>
        refine ⟨_, _, ⟨hs, rfl⟩, ?_⟩
        rw [if_neg (by simp [he])]
        exact (yields_operand _ _ _ _ _).mpr ⟨rfl, rfl⟩
  | isSet negated =>
    simp only [compileTest, yields_pure]
    constructor
    · rintro ⟨rfl, rfl⟩
      exact ⟨[], .isSet negated, rfl⟩
    · rintro ⟨vs, h, rfl⟩
      cases h with
      | isSet => exact ⟨rfl, rfl⟩

theorem yields_property (allowed : AllowList) (bag : Bag) (property : String)
    (op : PropertyOperator) (operand : Option Json) (b c : Bindings)
    (lt : Sql.Lookup × PropertyTest) :
    (compileProperty allowed bag property op operand).Yields b lt c ↔
      ∃ key t vs, allowed.check property = .ok key ∧
        TestLowers property operand b.counter op t vs ∧ lt = (⟨bag, key⟩, t) ∧
          c = b.bindAll vs := by
  simp only [compileProperty, yields_bind, yields_check, yields_test, yields_pure]
  constructor
  · rintro ⟨key, _, ⟨hk, rfl⟩, t, _, ⟨vs, ht, rfl⟩, rfl, rfl⟩
    exact ⟨key, t, vs, hk, ht, rfl, rfl⟩
  · rintro ⟨key, t, vs, hk, ht, rfl, rfl⟩
    exact ⟨key, _, ⟨hk, rfl⟩, t, _, ⟨vs, ht, rfl⟩, rfl, rfl⟩

inductive FiltersLower (allowed : AllowList) :
    Nat → List EventFilter → List RowTest → Literals → Prop where
  | nil (n : Nat) : FiltersLower allowed n [] [] []
  | cons {n : Nat} {f : EventFilter} {fs : List EventFilter} {key : PropertyName}
      {t : PropertyTest} {ts : List RowTest} {us vs : Literals}
      (hk : allowed.check f.property = .ok key)
      (ht : TestLowers f.property f.operand n f.operator t us)
      (hr : FiltersLower allowed (n + us.length) fs ts vs) :
      FiltersLower allowed n (f :: fs) (.property ⟨.event, key⟩ t :: ts) (us ++ vs)

theorem yields_filter (allowed : AllowList) (f : EventFilter) (b c : Bindings) (t : RowTest) :
    (compileFilter allowed f).Yields b t c ↔
      ∃ key u vs, allowed.check f.property = .ok key ∧
        TestLowers f.property f.operand b.counter f.operator u vs ∧
          t = .property ⟨.event, key⟩ u ∧ c = b.bindAll vs := by
  unfold compileFilter
  rw [yields_bind]
  constructor
  · rintro ⟨lt, d, h, hp⟩
    obtain ⟨key, u, vs, hk, hu, rfl, rfl⟩ := (yields_property _ _ _ _ _ _ _ _).mp h
    obtain ⟨rfl, rfl⟩ := (yields_pure _ _ _ _).mp hp
    exact ⟨key, u, vs, hk, hu, rfl, rfl⟩
  · rintro ⟨key, u, vs, hk, hu, rfl, rfl⟩
    exact ⟨_, _, (yields_property _ _ _ _ _ _ _ _).mpr ⟨key, u, vs, hk, hu, rfl, rfl⟩,
      (yields_pure _ _ _ _).mpr ⟨rfl, rfl⟩⟩

theorem yields_filters (allowed : AllowList) (fs : List EventFilter) (b c : Bindings)
    (ts : List RowTest) :
    (fs.mapM (compileFilter allowed)).Yields b ts c ↔
      ∃ vs, FiltersLower allowed b.counter fs ts vs ∧ c = b.bindAll vs := by
  induction fs generalizing b c ts with
  | nil =>
    rw [List.mapM_nil, yields_pure]
    constructor
    · rintro ⟨rfl, rfl⟩
      exact ⟨[], .nil _, rfl⟩
    · rintro ⟨vs, h, rfl⟩
      cases h with
      | nil => exact ⟨rfl, rfl⟩
  | cons f fs ih =>
    simp only [List.mapM_cons, yields_bind, yields_filter, yields_pure]
    constructor
    · rintro ⟨_, _, ⟨key, u, us, hk, hu, rfl, rfl⟩, ts, _, hy, rfl, rfl⟩
      obtain ⟨vs, hr, rfl⟩ := (ih _ _ _).mp hy
      rw [Bindings.bind_all_counter] at hr
      exact ⟨us ++ vs, .cons hk hu hr, (Bindings.bind_all_append _ _ _).symm⟩
    · rintro ⟨vs, h, rfl⟩
      cases h with
      | @cons _ _ _ key u ts us ws hk hu hr =>
        refine ⟨_, _, ⟨key, u, us, hk, hu, rfl, rfl⟩, ts, _, (ih _ _ _).mpr ⟨ws, ?_, rfl⟩, rfl, ?_⟩
        · rwa [Bindings.bind_all_counter]
        · exact Bindings.bind_all_append _ _ _

def scopeRows (n : Nat) : List RowTest :=
  [.inProject, .equal .eventName (place "coh_event" n .text)]

def windowStart (stop : Moment) (n : Nat) : Sql.Start :=
  ⟨stop, some (place "coh_window" n .word)⟩

def windowRows (stop : Moment) (n : Nat) : List RowTest :=
  scopeRows n ++ [.notBefore (windowStart stop (n + 1)), .notAfter stop]

def windowLiterals (event : String) (days : Nat) : Literals :=
  [("coh_event", .text event), ("coh_window", .word days)]

inductive LeafLowers (allowed : AllowList) (stop : Moment) (n : Nat) :
    Leaf → Fragment → Literals → Prop where
  | event {c : EventCondition} {ts : List RowTest} {vs : Literals}
      (hc : c.operator.requiresZero c.count = false) (hw : checkWindow c.windowDays = .ok ())
      (he : checkNotBlank "event_name" c.event = .ok ())
      (hf : FiltersLower allowed (n + 2) c.filters ts vs) :
      LeafLowers allowed stop n (.event c)
        (.performed (windowRows stop n ++ ts)
          [.count c.operator (place "coh_count" (n + 2 + vs.length) .word)])
        (windowLiterals c.event c.windowDays ++ vs ++ [("coh_count", .word c.count)])
  | person {c : PersonCondition} {key : PropertyName} {t : PropertyTest} {vs : Literals}
      (hk : allowed.check c.property = .ok key)
      (ht : TestLowers c.property c.operand n c.operator t vs) :
      LeafLowers allowed stop n (.person c) (.property ⟨.person, key⟩ t) vs
  | firstTime {c : FirstTimeCondition} (hw : checkWindow c.windowDays = .ok ())
      (he : checkNotBlank "event_name" c.event = .ok ()) :
      LeafLowers allowed stop n (.firstTime c)
        (.performed (scopeRows n)
          [.firstNotBefore (windowStart stop (n + 1)), .firstNotAfter stop])
        (windowLiterals c.event c.windowDays)
  | regular {c : RegularCondition} {ts : List RowTest} {vs : Literals}
      (hm : c.minPeriods ≠ 0) (hw : checkWindow c.windowDays = .ok ())
      (he : checkNotBlank "event_name" c.event = .ok ())
      (hf : FiltersLower allowed (n + 2) c.filters ts vs) :
      LeafLowers allowed stop n (.regular c)
        (.performed (windowRows stop n ++ ts)
          [.periods c.period (place "coh_min" (n + 2 + vs.length) .word)])
        (windowLiterals c.event c.windowDays ++ vs ++ [("coh_min", .word c.minPeriods)])
  | member {c : MemberCondition} (hb : checkNotBlank "cohort_id" c.cohort = .ok ()) :
      LeafLowers allowed stop n (.member c)
        (.member [.inProject, .equal .cohortId (place "coh_cohort" n .text)] c.negated)
        [("coh_cohort", .text c.cohort)]

theorem yields_scope (event : String) (b c : Bindings) (rows : List RowTest) :
    (compileScope event).Yields b rows c ↔ checkNotBlank "event_name" event = .ok () ∧
      rows = scopeRows b.counter ∧ c = b.bindAll [("coh_event", .text event)] := by
  simp only [compileScope, yields_bind, yields_check, yields_literal, yields_pure]
  constructor
  · rintro ⟨_, _, ⟨he, rfl⟩, _, _, ⟨rfl, rfl⟩, rfl, rfl⟩
    exact ⟨he, rfl, rfl⟩
  · rintro ⟨he, rfl, rfl⟩
    exact ⟨_, _, ⟨he, rfl⟩, _, _, ⟨rfl, rfl⟩, rfl, rfl⟩

theorem yields_windowed (allowed : AllowList) (event : String) (days : Nat)
    (filters : List EventFilter) (b c : Bindings) (rows : List RowTest) :
    (compileWindowed allowed event days filters).Yields b rows c ↔
      ∃ ts vs, checkWindow days = .ok () ∧ checkNotBlank "event_name" event = .ok () ∧
        FiltersLower allowed (b.counter + 2) filters ts vs ∧
          rows = windowRows b.stop b.counter ++ ts ∧
            c = b.bindAll (windowLiterals event days ++ vs) := by
  simp only [compileWindowed, yields_bind, yields_check, yields_scope, yields_window_end,
    yields_literal, yields_filters, yields_pure]
  constructor
  · rintro ⟨_, _, ⟨hw, rfl⟩, _, _, ⟨he, rfl, rfl⟩, _, _, ⟨rfl, rfl⟩, _, _, ⟨rfl, rfl⟩, ts, _,
      ⟨vs, hf, rfl⟩, rfl, rfl⟩
    exact ⟨ts, vs, hw, he, hf, rfl, rfl⟩
  · rintro ⟨ts, vs, hw, he, hf, rfl, rfl⟩
    exact ⟨_, _, ⟨hw, rfl⟩, _, _, ⟨he, rfl, rfl⟩, _, _, ⟨rfl, rfl⟩, _, _, ⟨rfl, rfl⟩, ts, _,
      ⟨vs, hf, rfl⟩, rfl, rfl⟩

theorem yields_counted (allowed : AllowList) (event : String) (days : Nat)
    (filters : List EventFilter) (stem : String) (v : Value) (test : Placeholder → GroupTest)
    (b c : Bindings) (f : Fragment) :
    (compileWindowed allowed event days filters >>= fun rows =>
        Binder.fresh stem v >>= fun p => pure (Fragment.performed rows [test p])).Yields b f c ↔
      ∃ ts vs, checkWindow days = .ok () ∧ checkNotBlank "event_name" event = .ok () ∧
        FiltersLower allowed (b.counter + 2) filters ts vs ∧
          f = .performed (windowRows b.stop b.counter ++ ts)
            [test (place stem (b.counter + 2 + vs.length) v.type)] ∧
            c = b.bindAll (windowLiterals event days ++ vs ++ [(stem, v)]) := by
  have hn (vs : Literals) : (b.bindAll (windowLiterals event days ++ vs)).counter =
      b.counter + 2 + vs.length := by
    rw [Bindings.bind_all_counter, List.length_append, ← Nat.add_assoc]
    rfl
  simp only [yields_bind, yields_windowed, yields_literal, yields_pure]
  constructor
  · rintro ⟨_, _, ⟨ts, vs, hw, he, hf, rfl, rfl⟩, _, _, ⟨rfl, rfl⟩, rfl, rfl⟩
    rw [hn vs, ← Bindings.bind_all_append]
    exact ⟨ts, vs, hw, he, hf, rfl, rfl⟩
  · rintro ⟨ts, vs, hw, he, hf, rfl, rfl⟩
    refine ⟨_, _, ⟨ts, vs, hw, he, hf, rfl, rfl⟩, _, _, ⟨rfl, rfl⟩, ?_, ?_⟩
    · rw [hn vs]
    · rw [Bindings.bind_all_append]

theorem yields_event (allowed : AllowList) (e : EventCondition) (b c : Bindings)
    (f : Fragment) : (e.compile allowed).Yields b f c ↔
      ∃ vs, LeafLowers allowed b.stop b.counter (.event e) f vs ∧ c = b.bindAll vs := by
  unfold EventCondition.compile
  constructor
  · intro h
    by_cases hz : e.operator.requiresZero e.count
    · rw [if_pos hz] at h
      exact absurd h (yields_refuse _ _ _ _)
    · rw [if_neg hz] at h
      obtain ⟨ts, vs, hw, he, hf, rfl, rfl⟩ := (yields_counted _ _ _ _ _ _ _ _ _ _).mp h
      exact ⟨_, .event (by simpa using hz) hw he hf, rfl⟩
  · rintro ⟨vs, h, rfl⟩
    cases h with
    | event hz hw he hf =>
      rw [if_neg (by simp [hz])]
      exact (yields_counted _ _ _ _ _ _ _ _ _ _).mpr ⟨_, _, hw, he, hf, rfl, rfl⟩

theorem yields_regular (allowed : AllowList) (e : RegularCondition) (b c : Bindings)
    (f : Fragment) : (e.compile allowed).Yields b f c ↔
      ∃ vs, LeafLowers allowed b.stop b.counter (.regular e) f vs ∧ c = b.bindAll vs := by
  unfold RegularCondition.compile
  constructor
  · intro h
    by_cases hz : e.minPeriods = 0
    · rw [if_pos hz] at h
      exact absurd h (yields_refuse _ _ _ _)
    · rw [if_neg hz] at h
      obtain ⟨ts, vs, hw, he, hf, rfl, rfl⟩ := (yields_counted _ _ _ _ _ _ _ _ _ _).mp h
      exact ⟨_, .regular hz hw he hf, rfl⟩
  · rintro ⟨vs, h, rfl⟩
    cases h with
    | regular hz hw he hf =>
      rw [if_neg hz]
      exact (yields_counted _ _ _ _ _ _ _ _ _ _).mpr ⟨_, _, hw, he, hf, rfl, rfl⟩

theorem yields_leaf (allowed : AllowList) (l : Leaf) (b c : Bindings) (f : Fragment) :
    (l.compile allowed).Yields b f c ↔
      ∃ vs, LeafLowers allowed b.stop b.counter l f vs ∧ c = b.bindAll vs := by
  cases l with
  | event e => exact yields_event allowed e b c f
  | regular e => exact yields_regular allowed e b c f
  | person e =>
    simp only [Leaf.compile, PersonCondition.compile, yields_bind, yields_property, yields_pure]
    constructor
    · rintro ⟨_, _, ⟨key, t, vs, hk, ht, rfl, rfl⟩, rfl, rfl⟩
      exact ⟨vs, .person hk ht, rfl⟩
    · rintro ⟨vs, h, rfl⟩
      cases h with
      | person hk ht => exact ⟨_, _, ⟨_, _, _, hk, ht, rfl, rfl⟩, rfl, rfl⟩
  | firstTime e =>
    simp only [Leaf.compile, FirstTimeCondition.compile, yields_bind, yields_check, yields_scope,
      yields_window_end, yields_literal, yields_pure]
    constructor
    · rintro ⟨_, _, ⟨hw, rfl⟩, _, _, ⟨he, rfl, rfl⟩, _, _, ⟨rfl, rfl⟩, _, _, ⟨rfl, rfl⟩, rfl, rfl⟩
      exact ⟨_, .firstTime hw he, rfl⟩
    · rintro ⟨vs, h, rfl⟩
      cases h with
      | firstTime hw he =>
        exact ⟨_, _, ⟨hw, rfl⟩, _, _, ⟨he, rfl, rfl⟩, _, _, ⟨rfl, rfl⟩, _, _, ⟨rfl, rfl⟩, rfl, rfl⟩
  | member e =>
    simp only [Leaf.compile, MemberCondition.compile, yields_bind, yields_check, yields_literal,
      yields_pure]
    constructor
    · rintro ⟨_, _, ⟨hb, rfl⟩, _, _, ⟨rfl, rfl⟩, rfl, rfl⟩
      exact ⟨_, .member hb, rfl⟩
    · rintro ⟨vs, h, rfl⟩
      cases h with
      | member hb => exact ⟨_, _, ⟨hb, rfl⟩, _, _, ⟨rfl, rfl⟩, rfl, rfl⟩

mutual

/-- `room` more groups may stand inside one another. -/
inductive NodeLowers (allowed : AllowList) (stop : Moment) :
    Nat → Nat → Condition → Predicate → Literals → Prop where
  | leaf {room n : Nat} {l : Leaf} {f : Fragment} {vs : Literals}
      (h : LeafLowers allowed stop n l f vs) :
      NodeLowers allowed stop room n (.leaf l) (.leaf f) vs
  | group {room n : Nat} (j : Junction) {ms : List Condition} {ps : List Predicate}
      {vs : Literals} (h : MembersLower allowed stop room n ms ps vs) :
      NodeLowers allowed stop (room + 1) n (.group j ms) (.group j ps) vs

inductive MembersLower (allowed : AllowList) (stop : Moment) :
    Nat → Nat → List Condition → List Predicate → Literals → Prop where
  | nil (room n : Nat) : MembersLower allowed stop room n [] [] []
  | cons {room n : Nat} {m : Condition} {ms : List Condition} {p : Predicate}
      {ps : List Predicate} {us vs : Literals} (h : NodeLowers allowed stop room n m p us)
      (hr : MembersLower allowed stop room (n + us.length) ms ps vs) :
      MembersLower allowed stop room n (m :: ms) (p :: ps) (us ++ vs)

end

mutual

theorem yields_node (allowed : AllowList) (room : Nat) (m : Condition) (b c : Bindings)
    (p : Predicate) : (compileNode allowed room m).Yields b p c ↔
      ∃ vs, NodeLowers allowed b.stop room b.counter m p vs ∧ c = b.bindAll vs := by
  match m, room with
  | .leaf l, room =>
    simp only [compileNode, yields_bind, yields_leaf, yields_pure]
    constructor
    · rintro ⟨f, _, ⟨vs, h, rfl⟩, rfl, rfl⟩
      exact ⟨vs, .leaf h, rfl⟩
    · rintro ⟨vs, h, rfl⟩
      cases h with
      | leaf h => exact ⟨_, _, ⟨vs, h, rfl⟩, rfl, rfl⟩
  | .group j ms, 0 =>
    rw [compileNode]
    constructor
    · intro h
      exact absurd h (yields_refuse _ _ _ _)
    · rintro ⟨vs, h, _⟩
      cases h
  | .group j ms, room + 1 =>
    simp only [compileNode, yields_bind, yields_members allowed room ms, yields_pure]
    constructor
    · rintro ⟨ps, _, ⟨vs, h, rfl⟩, rfl, rfl⟩
      exact ⟨vs, .group j h, rfl⟩
    · rintro ⟨vs, h, rfl⟩
      cases h with
      | group _ h => exact ⟨_, _, ⟨vs, h, rfl⟩, rfl, rfl⟩

theorem yields_members (allowed : AllowList) (room : Nat) (ms : List Condition)
    (b c : Bindings) (ps : List Predicate) : (compileMembers allowed room ms).Yields b ps c ↔
      ∃ vs, MembersLower allowed b.stop room b.counter ms ps vs ∧ c = b.bindAll vs := by
  match ms with
  | [] =>
    rw [compileMembers, yields_pure]
    constructor
    · rintro ⟨rfl, rfl⟩
      exact ⟨[], .nil _ _, rfl⟩
    · rintro ⟨vs, h, rfl⟩
      cases h with
      | nil => exact ⟨rfl, rfl⟩
  | m :: ms =>
    simp only [compileMembers, yields_bind, yields_node allowed room m,
      yields_members allowed room ms, yields_pure]
    constructor
    · rintro ⟨p, _, ⟨us, h, rfl⟩, ps, _, ⟨vs, hr, rfl⟩, rfl, rfl⟩
      rw [Bindings.bind_all_counter, stop_bind_all] at hr
      exact ⟨us ++ vs, .cons h hr, (Bindings.bind_all_append _ _ _).symm⟩
    · rintro ⟨vs, h, rfl⟩
      cases h with
      | @cons _ _ _ _ p ps us ws h hr =>
        refine ⟨p, _, ⟨us, h, rfl⟩, ps, _, ⟨ws, ?_, rfl⟩, rfl, ?_⟩
        · rwa [Bindings.bind_all_counter, stop_bind_all]
        · exact Bindings.bind_all_append _ _ _

end

end CohortQuery
