import CohortQuery.Proofs.Sql.Fragment

/-!
# Predicates as items

The text of a predicate reads as the formula that its tree describes, and the scopes in it
are those of its leaves.
-/

set_option autoImplicit false

namespace CohortQuery.Sql

def keyword : Junction → String
  | .and => "AND"
  | .or => "OR"

def emptyItems : Junction → List Item
  | .and => [word "1", blank, mark '=', blank, word "1"]
  | .or => [word "1", blank, mark '=', blank, word "0"]

def groupItems (j : Junction) : List (List Item) → List Item
  | [] => emptyItems j
  | [is] => is
  | is :: js :: rest => [.group (between (spaced (keyword j)) (is :: js :: rest))]

def joined : Junction → List Reading → Reading
  | .and => .all
  | .or => .any

namespace Predicate

def items (p : Predicate) : List Item :=
  p.fold Fragment.items groupItems

/-- What the tree says, without its text. -/
def formula (p : Predicate) : Reading :=
  p.fold Fragment.formula joined

def Proper (p : Predicate) : Prop :=
  ∀ f ∈ p.leaves, f.Proper

end Predicate

theorem render_all (ps : List Predicate) : Predicate.renderAll ps = ps.map Predicate.render := by
  induction ps with
  | nil => rfl
  | cons p ps ih => rw [Predicate.renderAll, ih, List.map_cons]

theorem proper_group {j : Junction} {ps : List Predicate} (h : Predicate.Proper (.group j ps)) :
    ∀ p ∈ ps, Predicate.Proper p := by
  intro p hp f hf
  refine h f ?_
  rw [Tree.leaves_group]
  exact List.mem_flatMap.mpr ⟨p, hp, hf⟩

theorem empty_reads (j : Junction) : Reads false (emptyText j) (emptyItems j) := by
  cases j
  · have h : Reads true "1 = " [word "1", blank, mark '=', blank] :=
      reads_constant (by decide) fun _ _ _ => rfl
    exact reads_append h (reads_word "1" (by decide) (by decide)) (.inl rfl)
  · have h : Reads true "1 = " [word "1", blank, mark '=', blank] :=
      reads_constant (by decide) fun _ _ _ => rfl
    exact reads_append h (reads_word "0" (by decide) (by decide)) (.inl rfl)

theorem junction_reads (j : Junction) : Reads true (junctionText j) (spaced (keyword j)) := by
  cases j <;> exact reads_constant (by decide) fun _ _ _ => rfl

theorem group_reads (j : Junction) (es : List String) (h : ∀ e ∈ es, Legible e) :
    Reads false (groupText j es) (groupItems j (es.map phrase)) := by
  match es with
  | [] => exact empty_reads j
  | [e] => exact h e (by simp)
  | e :: f :: rest =>
    have ha : StartsApart (junctionText j) := by cases j <;> rfl
    have hj := reads_join (junction_reads j) ha (e :: f :: rest) h
    exact reads_open (reads_group hj) false

theorem predicate_reads (p : Predicate) (h : p.Proper) : Reads false p.render p.items := by
  induction p using Tree.induct with
  | leaf f => exact fragment_reads f (h f (by simp [Tree.leaves, Tree.fold]))
  | group j ps ih =>
    have hp := proper_group h
    have hl : ∀ e ∈ ps.map Predicate.render, Legible e := by
      intro e he
      obtain ⟨p, hpm, rfl⟩ := List.mem_map.mp he
      exact legible_reads (ih p hpm (hp p hpm))
    have hi : (ps.map Predicate.render).map phrase = ps.map Predicate.items := by
      rw [List.map_map]
      exact List.map_congr_left fun p hpm => phrase_reads (ih p hpm (hp p hpm))
    have hg := group_reads j _ hl
    rw [hi] at hg
    rw [Predicate.render, render_all, Predicate.items, Tree.fold_group]
    exact hg

theorem group_quiet (j : Junction) (iss : List (List Item)) (h : ∀ is ∈ iss, Quiet is) :
    Quiet (groupItems j iss) := by
  match iss with
  | [] => cases j <;> exact quiet_plain (by decide)
  | [is] => exact h is (by simp)
  | is :: js :: rest =>
    intro i hi
    obtain rfl : i = .group _ := by simpa [groupItems] using hi
    rfl

theorem predicate_quiet (p : Predicate) : Quiet p.items := by
  induction p using Tree.induct with
  | leaf f => exact fragment_quiet f
  | group j ps ih =>
    rw [Predicate.items, Tree.fold_group]
    refine group_quiet j _ ?_
    intro is his
    obtain ⟨p, hp, rfl⟩ := List.mem_map.mp his
    exact ih p hp

theorem group_operand (j : Junction) (iss : List (List Item)) (fs : List Reading)
    (h : List.Forall₂ Operand iss fs) : Operand (groupItems j iss) (joined j fs) := by
  match h with
  | .nil => cases j <;> exact ⟨by decide, by decide, rfl⟩
  | .cons hf .nil => cases j <;> exact hf
  | .cons hf (.cons hg hr) =>
    have hall := List.Forall₂.cons hf (.cons hg hr)
    cases j with
    | and => exact operand_group (formula_and _ _ hall (by simp))
    | or => exact operand_group (formula_or _ _ hall (by simp))

theorem predicate_operand (p : Predicate) : Operand p.items p.formula := by
  induction p using Tree.induct with
  | leaf f => exact fragment_operand f
  | group j ps ih =>
    rw [Predicate.items, Predicate.formula, Tree.fold_group, Tree.fold_group]
    refine group_operand j _ _ ?_
    rw [List.forall₂_map_left_iff, List.forall₂_map_right_iff, List.forall₂_same]
    exact ih

theorem group_scopes (j : Junction) (iss : List (List Item)) (h : ∀ is ∈ iss, Quiet is) :
    (groupItems j iss).flatMap Item.scopes = iss.flatMap fun is => is.flatMap Item.scopes := by
  match iss with
  | [] => cases j <;> exact scopes_inert _ (inert_plain (by decide))
  | [is] => simp [groupItems]
  | is :: js :: rest =>
    have hs : ∀ i ∈ spaced (keyword j), i.opensScope = false := by
      cases j <;> decide
    have ho : ∀ i ∈ between (spaced (keyword j)) (is :: js :: rest), i.opensScope = false := by
      intro i hi
      rcases mem_between hi with hi | ⟨ks, hks, hi⟩
      · exact hs i hi
      · exact (reserved_not (h ks hks i hi)).1
    have hk : (spaced (keyword j)).flatMap Item.scopes = [] := by cases j <;> rfl
    rw [groupItems, List.flatMap_singleton, Item.scopes, scopes_beside _ ho, scopes_between hk]

theorem predicate_scopes (p : Predicate) (h : p.Proper) : p.items.flatMap Item.scopes =
    p.leaves.flatMap fun f => f.select?.toList.map Select.scope := by
  induction p using Tree.induct with
  | leaf f =>
    have hf := fragment_scopes f (h f (by simp [Tree.leaves, Tree.fold]))
    simpa [Predicate.items, Tree.leaves, Tree.fold] using hf
  | group j ps ih =>
    have hp := proper_group h
    have hq : ∀ is ∈ ps.map Predicate.items, Quiet is := by
      intro is his
      obtain ⟨p, _, rfl⟩ := List.mem_map.mp his
      exact predicate_quiet p
    have hg := group_scopes j _ hq
    rw [List.flatMap_map] at hg
    rw [Predicate.items, Tree.fold_group, Tree.leaves_group, List.flatMap_assoc]
    exact hg.trans (List.flatMap_congr fun p hpm => ih p hpm (hp p hpm))

theorem fragment_test (f : Fragment) : ∃ is, f.formula.tests = [is] := by
  cases f with
  | property l t => exact ⟨_, rfl⟩
  | performed rows groups => exact ⟨_, rfl⟩
  | member rows negated => cases negated <;> exact ⟨_, rfl⟩

theorem predicate_tests (p : Predicate) :
    p.formula.tests = p.leaves.flatMap fun f => f.formula.tests := by
  induction p using Tree.induct with
  | leaf f => simp [Predicate.formula, Tree.leaves, Tree.fold]
  | group j ps ih =>
    have hj : (joined j (ps.map Predicate.formula)).tests =
        (ps.map Predicate.formula).flatMap Formula.tests := by
      cases j
      · exact all_tests _
      · exact any_tests _
    rw [Predicate.formula, Tree.fold_group, Tree.leaves_group, List.flatMap_assoc]
    change (joined j (ps.map Predicate.formula)).tests = _
    rw [hj, List.flatMap_map]
    exact List.flatMap_congr ih

theorem leaf_tests (fs : List Fragment) : List.Forall₂ (fun f is => f.formula.tests = [is]) fs
    (fs.flatMap fun f => f.formula.tests) := by
  induction fs with
  | nil => exact .nil
  | cons f fs ih =>
    obtain ⟨is, hf⟩ := fragment_test f
    rw [List.flatMap_cons, hf]
    exact .cons hf ih

theorem predicate_size (p : Predicate) : p.formula.size = p.leaves.length := by
  rw [Formula.size, predicate_tests]
  exact (leaf_tests p.leaves).length_eq.symm

end CohortQuery.Sql
