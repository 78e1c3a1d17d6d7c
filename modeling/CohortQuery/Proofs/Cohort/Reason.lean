import CohortQuery.Proofs.Cohort.Lowering

/-!
# Why a tree is refused

What is bound already has no part in a refusal. The reason is a function of the tree and of the
allowed properties alone: that of the first step in the order of the leaves that does not succeed.
-/

set_option autoImplicit false

namespace CohortQuery

open Sql (Bag)

def Except.reason? {α : Type} : Except CompileError α → Option CompileError
  | .ok _ => none
  | .error e => some e

theorem Except.reason_some {α : Type} (x : Except CompileError α) (e : CompileError) :
    Except.reason? x = some e ↔ x = .error e := by
  cases x <;> simp [Except.reason?]

namespace Binder

variable {α β : Type}

theorem yields_some (m : Binder α) (b : Bindings) :
    (∃ a c, m.Yields b a c) ↔ Except.reason? (m.outcome b).1 = none := by
  unfold Yields
  generalize m.outcome b = r
  obtain ⟨e | a, c⟩ := r <;> simp [Except.reason?]

/-- From any bindings the step refuses for the same reason, or from none. -/
def Refuses (m : Binder α) (r : Option CompileError) : Prop :=
  ∀ b, Except.reason? (m.outcome b).1 = r

theorem refuses_pure (a : α) : Refuses (pure a) none :=
  fun _ => rfl

theorem refuses_fresh (stem : String) (v : Value) : Refuses (fresh stem v) none :=
  fun _ => rfl

theorem refuses_get : Refuses (get : Binder Bindings) none :=
  fun _ => rfl

theorem refuses_refuse (e : CompileError) : Refuses (refuse e : Binder α) (some e) :=
  fun _ => rfl

theorem refuses_check (x : Except CompileError α) : Refuses (check x) (Except.reason? x) := by
  intro b
  cases x <;> rfl

theorem refuses_bind {m : Binder α} {f : α → Binder β} {r s : Option CompileError}
    (hm : m.Refuses r) (hf : ∀ a b c, m.Yields b a c → (f a).Refuses s) :
    (m >>= f).Refuses (r.or s) := by
  intro b
  have h := hm b
  rw [outcome_bind]
  cases ho : m.outcome b with
  | mk x c =>
    rw [ho] at h
    subst h
    cases x with
    | error e => rfl
    | ok a => exact hf a b c ho c

theorem refuses_check_bind (x : Except CompileError α) {f : α → Binder β}
    {s : Option CompileError} (hf : ∀ a, x = .ok a → (f a).Refuses s) :
    (check x >>= f).Refuses ((Except.reason? x).or s) :=
  refuses_bind (refuses_check x) fun a b c h => hf a ((yields_check x a b c).mp h).1

theorem refuses_fresh_bind (stem : String) (v : Value) {f : Placeholder → Binder β}
    {s : Option CompileError} (hf : ∀ p, (f p).Refuses s) : (fresh stem v >>= f).Refuses s :=
  refuses_bind (refuses_fresh stem v) fun p _ _ _ => hf p

theorem refuses_map {m : Binder α} {r : Option CompileError} (hm : m.Refuses r) (f : α → β) :
    (m >>= fun a => pure (f a)).Refuses r := by
  have h := refuses_bind hm fun a _ _ _ => refuses_pure (f a)
  rwa [Option.or_none] at h

theorem refuses_all {f : α → Binder β} {r : α → Option CompileError}
    (h : ∀ a, (f a).Refuses (r a)) (as : List α) : (as.mapM f).Refuses (as.findSome? r) := by
  induction as with
  | nil => exact refuses_pure []
  | cons a as ih =>
    have hs : (a :: as).findSome? r = (r a).or (as.findSome? r) := by
      rw [List.findSome?_cons]
      cases r a <;> rfl
    rw [List.mapM_cons, hs]
    exact refuses_bind (h a) fun _ _ _ _ => refuses_map ih _

end Binder

open Binder (Refuses refuses_bind refuses_check refuses_check_bind refuses_fresh
  refuses_fresh_bind refuses_get refuses_map refuses_pure refuses_refuse)

def testReason? (property : String) (op : PropertyOperator) (operand : Option Json) :
    Option CompileError :=
  match op with
  | .equals _ => Except.reason? (Scalar.ofOperand property operand)
  | .ordered _ => Except.reason? (numberOperand property operand)
  | .contains _ => Except.reason? do
    let s ← Scalar.ofOperand property operand
    if s.toText.isEmpty then throw (.invalidValue property .emptyPattern)
  | .isSet _ => none

theorem test_refuses (property : String) (op : PropertyOperator) (operand : Option Json) :
    (compileTest property op operand).Refuses (testReason? property op operand) := by
  have hb {α : Type} (v : Value) (f : Placeholder → α) :
      (bindOperand v >>= fun p => pure (f p)).Refuses none :=
    refuses_map (refuses_fresh "coh_prop" v) f
  cases op with
  | isSet negated => exact refuses_pure _
  | equals negated =>
    rw [testReason?, compileTest, ← Option.or_none (o := Except.reason? _)]
    refine refuses_check_bind _ fun s _ => ?_
    cases s <;> exact hb _ _
  | ordered order =>
    rw [testReason?, compileTest, ← Option.or_none (o := Except.reason? _)]
    exact refuses_check_bind _ fun x _ => hb (.real x) _
  | contains negated =>
    rw [testReason?, compileTest]
    cases hs : Scalar.ofOperand property operand with
    | error e => exact refuses_refuse e
    | ok s =>
      refine refuses_check_bind (.ok s) fun t ht => ?_
      obtain rfl := Except.ok.inj ht
      change Refuses (if _ then _ else _) (Except.reason? (if _ then _ else _))
      split
      · exact refuses_refuse _
      · exact hb _ _

def propertyReason? (allowed : AllowList) (property : String) (op : PropertyOperator)
    (operand : Option Json) : Option CompileError :=
  (Except.reason? (allowed.check property)).or (testReason? property op operand)

theorem property_refuses (allowed : AllowList) (bag : Bag) (property : String)
    (op : PropertyOperator) (operand : Option Json) :
    (compileProperty allowed bag property op operand).Refuses
      (propertyReason? allowed property op operand) :=
  refuses_check_bind _ fun _ _ => refuses_map (test_refuses property op operand) _

def EventFilter.reason? (allowed : AllowList) (f : EventFilter) : Option CompileError :=
  propertyReason? allowed f.property f.operator f.operand

def scopeReason? (event : String) : Option CompileError :=
  Except.reason? (checkNotBlank "event_name" event)

def windowReason? (event : String) (days : Nat) : Option CompileError :=
  (Except.reason? (checkWindow days)).or (scopeReason? event)

def filteredReason? (allowed : AllowList) (event : String) (days : Nat)
    (filters : List EventFilter) : Option CompileError :=
  (windowReason? event days).or (filters.findSome? (EventFilter.reason? allowed))

def Leaf.reason? (allowed : AllowList) : Leaf → Option CompileError
  | .event c =>
    if c.operator.requiresZero c.count then
      some (.invalidValue "count" (.onlyZeroCount c.operator c.count))
    else filteredReason? allowed c.event c.windowDays c.filters
  | .person c => propertyReason? allowed c.property c.operator c.operand
  | .firstTime c => windowReason? c.event c.windowDays
  | .regular c =>
    if c.minPeriods = 0 then some (.invalidValue "min_periods" .zero)
    else filteredReason? allowed c.event c.windowDays c.filters
  | .member c => Except.reason? (checkNotBlank "cohort_id" c.cohort)

theorem scope_refuses (event : String) : (compileScope event).Refuses (scopeReason? event) := by
  rw [scopeReason?, ← Option.or_none (o := Except.reason? _)]
  exact refuses_check_bind _ fun _ _ => refuses_map (refuses_fresh _ _) _

theorem window_end_refuses : windowEnd.Refuses none := by
  refine refuses_bind refuses_get fun b _ _ _ => ?_
  cases b.dateTo <;> exact refuses_pure _

theorem window_refuses {α : Type} (event : String) (days : Nat) {r : Option CompileError}
    (f : List Sql.RowTest → Sql.Moment → Placeholder → Binder α)
    (hf : ∀ rows stop window, (f rows stop window).Refuses r) :
    (do
      Binder.check (checkWindow days)
      let rows ← compileScope event
      let stop ← windowEnd
      let window ← Binder.fresh "coh_window" (.word days)
      f rows stop window).Refuses ((windowReason? event days).or r) := by
  rw [windowReason?, Option.or_assoc]
  refine refuses_check_bind _ fun _ _ => refuses_bind (scope_refuses event) fun rows _ _ _ => ?_
  refine refuses_bind window_end_refuses fun stop _ _ _ => ?_
  exact refuses_fresh_bind _ _ fun window => hf rows stop window

theorem windowed_refuses (allowed : AllowList) (event : String) (days : Nat)
    (filters : List EventFilter) : (compileWindowed allowed event days filters).Refuses
      (filteredReason? allowed event days filters) := by
  refine window_refuses event days _ fun rows stop window => refuses_map ?_ _
  exact Binder.refuses_all (fun f => refuses_map (property_refuses _ _ _ _ _) _) filters

theorem leaf_refuses (allowed : AllowList) (l : Leaf) :
    (l.compile allowed).Refuses (l.reason? allowed) := by
  have counted (event : String) (days : Nat) (filters : List EventFilter) (stem : String)
      (v : Value) (test : Placeholder → Sql.GroupTest) :
      (compileWindowed allowed event days filters >>= fun rows => Binder.fresh stem v >>= fun p =>
        pure (Sql.Fragment.performed rows [test p])).Refuses
          (filteredReason? allowed event days filters) := by
    rw [← Option.or_none (o := filteredReason? _ _ _ _)]
    exact refuses_bind (windowed_refuses _ _ _ _) fun _ _ _ _ =>
      refuses_map (refuses_fresh stem v) _
  cases l with
  | event c =>
    rw [Leaf.compile, EventCondition.compile, Leaf.reason?]
    split
    · exact refuses_refuse _
    · exact counted _ _ _ _ _ _
  | person c => exact refuses_map (property_refuses _ _ _ _ _) _
  | firstTime c =>
    rw [Leaf.reason?, ← Option.or_none (o := windowReason? _ _)]
    exact window_refuses c.event c.windowDays _ fun _ _ _ => refuses_pure _
  | regular c =>
    rw [Leaf.compile, RegularCondition.compile, Leaf.reason?]
    split
    · exact refuses_refuse _
    · exact counted _ _ _ _ _ _
  | member c =>
    rw [Leaf.reason?, ← Option.or_none (o := Except.reason? _)]
    exact refuses_check_bind _ fun _ _ => refuses_map (refuses_fresh _ _) _

mutual

def nodeReason? (allowed : AllowList) (room : Nat) : Condition → Option CompileError
  | .leaf l => l.reason? allowed
  | .group _ ms =>
    match room with
    | 0 => some .tooDeep
    | room + 1 => membersReason? allowed room ms

def membersReason? (allowed : AllowList) (room : Nat) : List Condition → Option CompileError
  | [] => none
  | m :: ms => (nodeReason? allowed room m).or (membersReason? allowed room ms)

end

mutual

theorem node_refuses (allowed : AllowList) (room : Nat) (m : Condition) :
    (compileNode allowed room m).Refuses (nodeReason? allowed room m) := by
  match m, room with
  | .leaf l, room =>
    rw [compileNode, nodeReason?]
    exact refuses_map (leaf_refuses allowed l) _
  | .group j ms, 0 =>
    rw [compileNode, nodeReason?]
    exact refuses_refuse _
  | .group j ms, room + 1 =>
    rw [compileNode, nodeReason?]
    exact refuses_map (members_refuse allowed room ms) _

theorem members_refuse (allowed : AllowList) (room : Nat) (ms : List Condition) :
    (compileMembers allowed room ms).Refuses (membersReason? allowed room ms) := by
  match ms with
  | [] =>
    rw [compileMembers, membersReason?]
    exact refuses_pure _
  | m :: ms =>
    rw [compileMembers, membersReason?]
    exact refuses_bind (node_refuses allowed room m) fun _ _ _ _ =>
      refuses_map (members_refuse allowed room ms) _

end

theorem refused_alike (allowed : AllowList) (m : Condition) (b c : Bindings) (e : CompileError) :
    ((m.compile allowed).outcome b).1 = .error e ↔
      ((m.compile allowed).outcome c).1 = .error e := by
  have hm := node_refuses allowed Limits.depth m
  rw [← Except.reason_some, ← Except.reason_some]
  exact iff_of_eq (congrArg (· = some e) ((hm b).trans (hm c).symm))

theorem compiled_alike (allowed : AllowList) (m : Condition) (b c : Bindings)
    (h : ∃ p d, (m.compile allowed).Yields b p d) : ∃ p d, (m.compile allowed).Yields c p d := by
  have hm := node_refuses allowed Limits.depth m
  rw [Binder.yields_some] at h ⊢
  exact (hm c).trans ((hm b).symm.trans h)

end CohortQuery
