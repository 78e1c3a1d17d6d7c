import CohortQuery.Cohort.Condition
import Mathlib.Data.List.Forall2

/-!
# Trees of conditions

Induction over a tree together with the lists of members in it, what is gathered from its
leaves, and trees that differ in their leaves only.
-/

set_option autoImplicit false

namespace CohortQuery.Tree

variable {α β γ : Type}

@[elab_as_elim]
theorem induct {motive : Tree α → Prop} (leaf : ∀ a, motive (.leaf a))
    (group : ∀ j members, (∀ m ∈ members, motive m) → motive (.group j members))
    (t : Tree α) : motive t := by
  refine @Tree.rec α motive (fun ts => ∀ m ∈ ts, motive m) leaf group ?_ ?_ t
  · intro m hm
    cases hm
  · intro t ts ht hts m hm
    rcases List.mem_cons.mp hm with rfl | hm
    · exact ht
    · exact hts m hm

mutual

def fold (leaf : α → β) (group : Junction → List β → β) : Tree α → β
  | .leaf a => leaf a
  | .group j members => group j (foldAll leaf group members)

def foldAll (leaf : α → β) (group : Junction → List β → β) : List (Tree α) → List β
  | [] => []
  | t :: ts => fold leaf group t :: foldAll leaf group ts

end

theorem fold_all (leaf : α → β) (group : Junction → List β → β) (ts : List (Tree α)) :
    foldAll leaf group ts = ts.map (fold leaf group) := by
  induction ts with
  | nil => rfl
  | cons t ts ih => rw [foldAll, ih, List.map_cons]

theorem fold_group (leaf : α → β) (group : Junction → List β → β) (j : Junction)
    (members : List (Tree α)) :
    fold leaf group (.group j members) = group j (members.map (fold leaf group)) := by
  rw [fold, fold_all]

def leaves (t : Tree α) : List α :=
  t.fold (fun a => [a]) (fun _ => List.flatten)

theorem leaves_group (j : Junction) (members : List (Tree α)) :
    (Tree.group j members).leaves = members.flatMap leaves := by
  rw [leaves, fold_group]
  rfl

mutual

/-- The trees have the same groups, and related leaves in the same places. -/
def Rel (R : α → β → Prop) : Tree α → Tree β → Prop
  | .leaf a, .leaf b => R a b
  | .group j ms, .group k ns => j = k ∧ RelAll R ms ns
  | _, _ => False

def RelAll (R : α → β → Prop) : List (Tree α) → List (Tree β) → Prop
  | [], [] => True
  | m :: ms, n :: ns => Rel R m n ∧ RelAll R ms ns
  | _, _ => False

end

theorem rel_all (R : α → β → Prop) (ms : List (Tree α)) (ns : List (Tree β)) :
    RelAll R ms ns ↔ List.Forall₂ (Rel R) ms ns := by
  induction ms generalizing ns with
  | nil => cases ns <;> simp [RelAll]
  | cons m ms ih => cases ns <;> simp [RelAll, ih]

theorem rel_leaves {R : α → β → Prop} {s : Tree α} {t : Tree β} (h : Rel R s t) :
    List.Forall₂ R s.leaves t.leaves := by
  induction s using induct generalizing t with
  | leaf a =>
    cases t with
    | leaf b => exact .cons h .nil
    | group k ns => exact h.elim
  | group j ms ih =>
    cases t with
    | leaf b => exact h.elim
    | group k ns =>
      rw [leaves_group, leaves_group]
      have hm := (rel_all R ms ns).mp h.2
      clear h
      induction hm with
      | nil => exact .nil
      | cons hr _ iht =>
        rw [List.flatMap_cons, List.flatMap_cons]
        exact List.rel_append (ih _ (by simp) hr) (iht fun m hm => ih m (by simp [hm]))

theorem rel_right {R : α → β → Prop} {P : β → Prop} {s : Tree α} {t : Tree β} (h : Rel R s t)
    (hp : ∀ a b, R a b → P b) : ∀ b ∈ t.leaves, P b := by
  have hl := rel_leaves h
  generalize s.leaves = as at hl
  generalize t.leaves = bs at hl ⊢
  induction hl with
  | nil => simp
  | cons hr _ ih =>
    intro b hb
    rcases List.mem_cons.mp hb with rfl | hb
    · exact hp _ _ hr
    · exact ih b hb

mutual

theorem rel_imp {R S : α → β → Prop} (hi : ∀ a b, R a b → S a b) {s : Tree α} {t : Tree β}
    (h : Rel R s t) : Rel S s t := by
  match s, t, h with
  | .leaf a, .leaf b, h => exact hi a b h
  | .group j ms, .group k ns, h => exact ⟨h.1, rel_all_imp hi h.2⟩

theorem rel_all_imp {R S : α → β → Prop} (hi : ∀ a b, R a b → S a b) {ms : List (Tree α)}
    {ns : List (Tree β)} (h : RelAll R ms ns) : RelAll S ms ns := by
  match ms, ns, h with
  | [], [], _ => trivial
  | m :: ms, n :: ns, h => exact ⟨rel_imp hi h.1, rel_all_imp hi h.2⟩

end

mutual

theorem rel_refl {R : α → α → Prop} (hr : ∀ a, R a a) (t : Tree α) : Rel R t t := by
  match t with
  | .leaf a => exact hr a
  | .group j ms => exact ⟨rfl, rel_all_refl hr ms⟩

theorem rel_all_refl {R : α → α → Prop} (hr : ∀ a, R a a) (ms : List (Tree α)) :
    RelAll R ms ms := by
  match ms with
  | [] => trivial
  | m :: ms => exact ⟨rel_refl hr m, rel_all_refl hr ms⟩

end

mutual

theorem rel_eq {s t : Tree α} (h : Rel Eq s t) : s = t := by
  match s, t, h with
  | .leaf a, .leaf b, h =>
    have hab : a = b := h
    rw [hab]
  | .group j ms, .group k ns, h => rw [h.1, rel_all_eq h.2]

theorem rel_all_eq {ms ns : List (Tree α)} (h : RelAll Eq ms ns) : ms = ns := by
  match ms, ns, h with
  | [], [], _ => rfl
  | m :: ms, n :: ns, h => rw [rel_eq h.1, rel_all_eq h.2]

end

end CohortQuery.Tree
