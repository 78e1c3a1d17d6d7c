import CohortQuery.Cohort.Compile
import CohortQuery.Proofs.Binder
import Mathlib.Tactic.ByContra

/-!
# Counts that are refused

A statement that groups events has no group without any, so it cannot count to zero. A condition
on a count is refused for this reason if zero is the only count that would satisfy it, and no
other step of its compilation refuses for this reason. Nor does any step of a leaf refuse for the
number of groups around it.
-/

set_option autoImplicit false

namespace CohortQuery

namespace Binder

variable {α β : Type} {P : CompileError → Prop}

def Avoids (P : CompileError → Prop) (m : Binder α) : Prop :=
  ∀ b e, (m.outcome b).1 = .error e → ¬ P e

theorem avoids_pure (a : α) : Avoids P (pure a) := by
  intro b e h
  cases h

theorem avoids_bind {m : Binder α} {f : α → Binder β} (hm : m.Avoids P)
    (hf : ∀ a, (f a).Avoids P) : (m >>= f).Avoids P := by
  intro b e h
  rw [outcome_bind] at h
  cases ho : m.outcome b with
  | mk r c =>
    rw [ho] at h
    cases r with
    | error e' =>
      obtain rfl : e' = e := Except.error.inj h
      exact hm b e' (by rw [ho])
    | ok a => exact hf a c e h

theorem avoids_fresh (stem : String) (v : Value) : Avoids P (fresh stem v) := by
  intro b e h
  cases h

theorem avoids_get : Avoids P (get : Binder Bindings) := by
  intro b e h
  cases h

theorem avoids_refuse {e : CompileError} (h : ¬ P e) : Avoids P (refuse e : Binder α) := by
  intro b e' he
  obtain rfl : e = e' := Except.error.inj he
  exact h

theorem avoids_check {r : Except CompileError α} (h : ∀ e, r = .error e → ¬ P e) :
    Avoids P (check r) := by
  cases r with
  | ok a => exact avoids_pure a
  | error e => exact avoids_refuse (h e rfl)

theorem avoids_all {f : α → Binder β} (h : ∀ a, (f a).Avoids P) (as : List α) :
    (as.mapM f).Avoids P := by
  induction as with
  | nil => exact avoids_pure []
  | cons a as ih =>
    rw [List.mapM_cons]
    exact avoids_bind (h a) fun _ => avoids_bind ih fun _ => avoids_pure _

end Binder

open Binder (Avoids avoids_bind avoids_check avoids_fresh avoids_get avoids_pure avoids_refuse)

/-- The reason is that only a count of zero would satisfy the condition. -/
def CompileError.OnlyZero (e : CompileError) : Prop :=
  ∃ field op n, e = .invalidValue field (.onlyZeroCount op n)

/-- The reason is not a value, name or window but how a condition or a tree is made. -/
def CompileError.OfShape (e : CompileError) : Prop :=
  e.OnlyZero ∨ e = .tooDeep

theorem window_avoids (days : Nat) :
    Avoids CompileError.OfShape (Binder.check (checkWindow days)) := by
  refine avoids_check fun e h => ?_
  unfold checkWindow at h
  split at h
  · cases h
  · cases h
    simp [CompileError.OfShape, CompileError.OnlyZero]

theorem blank_avoids (field s : String) :
    Avoids CompileError.OfShape (Binder.check (checkNotBlank field s)) := by
  refine avoids_check fun e h => ?_
  unfold checkNotBlank at h
  split at h
  · cases h
    simp [CompileError.OfShape, CompileError.OnlyZero]
  · cases h

theorem name_avoids (allowed : AllowList) (property : String) :
    Avoids CompileError.OfShape (Binder.check (allowed.check property)) := by
  refine avoids_check fun e h => ?_
  unfold AllowList.check at h
  split at h
  · cases h
    simp [CompileError.OfShape, CompileError.OnlyZero]
  · split at h
    · cases h
    · cases h
      simp [CompileError.OfShape, CompileError.OnlyZero]

theorem scalar_avoids (property : String) (operand : Option Json) :
    Avoids CompileError.OfShape (Binder.check (Scalar.ofOperand property operand)) := by
  refine avoids_check fun e h => ?_
  unfold Scalar.ofOperand at h
  split at h
  · cases h
  · cases h
  · split at h
    · cases h
    · cases h
      simp [CompileError.OfShape, CompileError.OnlyZero]
  · cases h
  all_goals
    cases h
    simp [CompileError.OfShape, CompileError.OnlyZero]

theorem number_avoids (property : String) (operand : Option Json) :
    Avoids CompileError.OfShape (Binder.check (numberOperand property operand)) := by
  refine avoids_check fun e h => ?_
  unfold numberOperand at h
  dsimp only at h
  split at h
  · split at h
    · cases h
    · cases h
      simp [CompileError.OfShape, CompileError.OnlyZero]
  · cases h
    simp [CompileError.OfShape, CompileError.OnlyZero]

theorem test_avoids (property : String) (op : PropertyOperator) (operand : Option Json) :
    Avoids CompileError.OfShape (compileTest property op operand) := by
  have bound (v : Value) (f : Placeholder → Sql.PropertyTest) :
      Avoids CompileError.OfShape (bindOperand v >>= fun p => pure (f p)) :=
    avoids_bind (avoids_fresh _ _) fun _ => avoids_pure _
  cases op with
  | equals negated =>
    refine avoids_bind (scalar_avoids property operand) fun s => ?_
    cases s <;> exact bound _ _
  | ordered order => exact avoids_bind (number_avoids property operand) fun x => bound _ _
  | contains negated =>
    refine avoids_bind (scalar_avoids property operand) fun s => ?_
    dsimp only
    split
    · exact avoids_refuse (by simp [CompileError.OfShape, CompileError.OnlyZero])
    · exact bound _ _
  | isSet negated => exact avoids_pure _

theorem property_avoids (allowed : AllowList) (bag : Sql.Bag) (property : String)
    (op : PropertyOperator) (operand : Option Json) :
    Avoids CompileError.OfShape (compileProperty allowed bag property op operand) :=
  avoids_bind (name_avoids allowed property) fun _ =>
    avoids_bind (test_avoids property op operand) fun _ => avoids_pure _

theorem filter_avoids (allowed : AllowList) (f : EventFilter) :
    Avoids CompileError.OfShape (compileFilter allowed f) :=
  avoids_bind (property_avoids allowed .event f.property f.operator f.operand) fun _ =>
    avoids_pure _

theorem scope_avoids (event : String) : Avoids CompileError.OfShape (compileScope event) :=
  avoids_bind (blank_avoids "event_name" event) fun _ =>
    avoids_bind (avoids_fresh _ _) fun _ => avoids_pure _

theorem window_end_avoids : Avoids CompileError.OfShape windowEnd := by
  refine avoids_bind avoids_get fun b => ?_
  cases b.dateTo <;> exact avoids_pure _

theorem windowed_avoids (allowed : AllowList) (event : String) (days : Nat)
    (filters : List EventFilter) :
    Avoids CompileError.OfShape (compileWindowed allowed event days filters) := by
  refine avoids_bind (window_avoids days) fun _ => avoids_bind (scope_avoids event) fun _ =>
    avoids_bind window_end_avoids fun _ => avoids_bind (avoids_fresh _ _) fun _ => ?_
  exact avoids_bind (Binder.avoids_all (filter_avoids allowed) filters) fun _ => avoids_pure _

theorem counted_avoids (allowed : AllowList) {c : EventCondition}
    (h : ¬ c.operator.requiresZero c.count) :
    Avoids CompileError.OfShape (c.compile allowed) := by
  rw [EventCondition.compile, if_neg h]
  exact avoids_bind (windowed_avoids allowed _ _ _) fun _ =>
    avoids_bind (avoids_fresh _ _) fun _ => avoids_pure _

theorem requires_zero_iff (op : CountOperator) (n : Nat) :
    op.requiresZero n = true ↔ ¬ ∃ c, 1 ≤ c ∧ op.holds c n = true := by
  cases op with
  | atLeast | above | unequal =>
    refine iff_of_false Bool.false_ne_true (not_not.mpr ⟨n + 1, by omega, ?_⟩)
    simp [CountOperator.holds]
  | atMost | below =>
    simp only [CountOperator.requiresZero, CountOperator.holds, decide_eq_true_eq]
    refine ⟨fun h ⟨c, hc⟩ => by omega, fun h => ?_⟩
    by_contra hn
    exact h ⟨1, by omega⟩
  | equal =>
    simp only [CountOperator.requiresZero, CountOperator.holds, decide_eq_true_eq]
    refine ⟨fun h ⟨c, hc⟩ => by omega, fun h => ?_⟩
    by_contra hn
    exact h ⟨n, by omega⟩

theorem zero_refused (allowed : AllowList) (c : EventCondition) (b : Bindings) :
    (∃ e, e.OnlyZero ∧ ((c.compile allowed).outcome b).1 = .error e) ↔
      ¬ ∃ k, 1 ≤ k ∧ c.operator.holds k c.count = true := by
  rw [← requires_zero_iff]
  constructor
  · rintro ⟨e, he, h⟩
    by_contra hz
    exact counted_avoids allowed hz b e h (.inl he)
  · intro hz
    refine ⟨_, ⟨"count", c.operator, c.count, rfl⟩, ?_⟩
    rw [EventCondition.compile, if_pos hz]
    rfl

theorem leaf_not_deep (allowed : AllowList) (l : Leaf) (b : Bindings) :
    ((l.compile allowed).outcome b).1 ≠ .error .tooDeep := by
  have apart {α : Type} {m : Binder α} (h : Avoids CompileError.OfShape m) :
      (m.outcome b).1 ≠ .error .tooDeep :=
    fun he => h b _ he (.inr rfl)
  cases l with
  | event c =>
    by_cases hz : c.operator.requiresZero c.count
    · rw [Leaf.compile, EventCondition.compile, if_pos hz]
      intro h
      cases h
    · exact apart (counted_avoids allowed hz)
  | person c => exact apart (avoids_bind (property_avoids _ _ _ _ _) fun _ => avoids_pure _)
  | firstTime c =>
    refine apart (avoids_bind (window_avoids _) fun _ => avoids_bind (scope_avoids _) fun _ => ?_)
    exact avoids_bind window_end_avoids fun _ => avoids_bind (avoids_fresh _ _) fun _ =>
      avoids_pure _
  | regular c =>
    rw [Leaf.compile, RegularCondition.compile]
    split
    · intro h
      cases h
    · exact apart (avoids_bind (windowed_avoids allowed _ _ _) fun _ =>
        avoids_bind (avoids_fresh _ _) fun _ => avoids_pure _)
  | member c =>
    exact apart (avoids_bind (blank_avoids _ _) fun _ => avoids_bind (avoids_fresh _ _) fun _ =>
      avoids_pure _)

end CohortQuery
