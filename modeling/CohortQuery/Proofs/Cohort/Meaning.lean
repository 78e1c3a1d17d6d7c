import CohortQuery.Proofs.Compiled

/-!
# The boolean meaning of a definition

The leaves of a tree take truth values from left to right. The text that a definition is
compiled to is true under exactly those values under which the tree is: NULL counts as
false, and no group reaches beyond its place in the text.
-/

set_option autoImplicit false

namespace CohortQuery

open Sql (Formula Fragment Predicate Truth Valuation projectTest)

namespace Tree

variable {α β : Type}

mutual

/-- Whether the tree is true when its leaves have the values `ρ`. -/
def Holds (ρ : Valuation) : Tree α → Prop
  | .leaf _ => ρ 0 = some true
  | .group .and members => HoldsAll ρ members
  | .group .or members => HoldsAny ρ members

def HoldsAll (ρ : Valuation) : List (Tree α) → Prop
  | [] => True
  | m :: ms => Holds ρ m ∧ HoldsAll (ρ.after m.leaves.length) ms

def HoldsAny (ρ : Valuation) : List (Tree α) → Prop
  | [] => False
  | m :: ms => Holds ρ m ∨ HoldsAny (ρ.after m.leaves.length) ms

end

theorem holds_rel {R : α → β → Prop} {s : Tree α} {t : Tree β} (h : Rel R s t)
    (ρ : Valuation) : Holds ρ s ↔ Holds ρ t := by
  induction s using induct generalizing t ρ with
  | leaf a =>
    cases t with
    | leaf b => rfl
    | group k ns => exact h.elim
  | group j ms ih =>
    cases t with
    | leaf b => exact h.elim
    | group k ns =>
      obtain ⟨rfl, hm⟩ := h
      rw [rel_all] at hm
      cases j with
      | and =>
        induction hm generalizing ρ with
        | nil => rfl
        | @cons m n ms ns hr _ iht =>
          have hl := (rel_leaves hr).length_eq
          have hh := ih m (by simp) hr ρ
          have ht := iht (fun m hm => ih m (by simp [hm])) (ρ.after m.leaves.length)
          rw [hl] at ht
          change Holds ρ m ∧ HoldsAll _ ms ↔ Holds ρ n ∧ HoldsAll _ ns
          rw [hh, hl]
          exact and_congr_right fun _ => ht
      | or =>
        induction hm generalizing ρ with
        | nil => rfl
        | @cons m n ms ns hr _ iht =>
          have hl := (rel_leaves hr).length_eq
          have hh := ih m (by simp) hr ρ
          have ht := iht (fun m hm => ih m (by simp [hm])) (ρ.after m.leaves.length)
          rw [hl] at ht
          change Holds ρ m ∨ HoldsAny _ ms ↔ Holds ρ n ∨ HoldsAny _ ns
          rw [hh, hl]
          exact or_congr_right ht

end Tree

/-- With the values `ν` of the tests, the texts of the fragments have the values `ρ`. -/
def Gives (fragments : List Fragment) (ν ρ : Valuation) : Prop :=
  ∀ i f, fragments[i]? = some f →
    (Sql.condition f.render).map (Formula.eval (ν.after i)) = some (ρ i)

theorem gives_append {fs gs : List Fragment} {ν ρ : Valuation} (h : Gives (fs ++ gs) ν ρ) :
    Gives fs ν ρ ∧ Gives gs (ν.after fs.length) (ρ.after fs.length) := by
  constructor
  · intro i f hi
    have hlt : i < fs.length := (List.getElem?_eq_some_iff.mp hi).1
    exact h i f (by rw [List.getElem?_append_left hlt, hi])
  · intro i f hi
    have hk : (fs ++ gs)[fs.length + i]? = some f := by
      rw [List.getElem?_append_right (by omega), Nat.add_sub_cancel_left, hi]
    have hv := h (fs.length + i) f hk
    rwa [← Sql.after_after] at hv

theorem fragment_condition (f : Fragment) (h : f.Proper) :
    Sql.condition f.render = some f.formula :=
  Sql.condition_operand (Sql.fragment_reads f h) (Sql.fragment_operand f)

theorem leaf_conditions (p : Predicate) (h : p.Proper) :
    List.Forall₂ (fun f is => (Sql.condition f.render).map Formula.tests = some [is]) p.leaves
      p.formula.tests := by
  have hl := Sql.leaf_tests p.leaves
  rw [← Sql.predicate_tests] at hl
  refine List.forall₂_iff_zip.mpr ⟨hl.length_eq, ?_⟩
  intro f is hm
  rw [fragment_condition f (h f (List.of_mem_zip hm).1), Option.map_some]
  exact congrArg some ((List.forall₂_iff_zip.mp hl).2 hm)

theorem predicate_condition (p : Predicate) (h : p.Proper) :
    Sql.condition p.render = some p.formula :=
  Sql.condition_operand (Sql.predicate_reads p h) (Sql.predicate_operand p)

theorem all_holds (ps : List Predicate) (ν ρ : Valuation)
    (h : ∀ p ∈ ps, ∀ ν ρ, Gives p.leaves ν ρ →
      (p.formula.eval ν = some true ↔ Tree.Holds ρ p))
    (hg : Gives (ps.flatMap Tree.leaves) ν ρ) :
    (Formula.all (ps.map Predicate.formula)).eval ν = some true ↔ Tree.HoldsAll ρ ps := by
  rw [Sql.all_true_iff]
  induction ps generalizing ν ρ with
  | nil => rfl
  | cons p ps ih =>
    obtain ⟨hh, ht⟩ := gives_append hg
    have hp := h p (by simp) ν ρ hh
    have hr := ih _ _ (fun q hq => h q (by simp [hq])) ht
    rw [List.map_cons, Formula.AllTrue, Tree.HoldsAll, hp, Sql.predicate_size, hr]

theorem any_holds (ps : List Predicate) (ν ρ : Valuation)
    (h : ∀ p ∈ ps, ∀ ν ρ, Gives p.leaves ν ρ →
      (p.formula.eval ν = some true ↔ Tree.Holds ρ p))
    (hg : Gives (ps.flatMap Tree.leaves) ν ρ) :
    (Formula.any (ps.map Predicate.formula)).eval ν = some true ↔ Tree.HoldsAny ρ ps := by
  rw [Sql.any_true_iff]
  induction ps generalizing ν ρ with
  | nil => rfl
  | cons p ps ih =>
    obtain ⟨hh, ht⟩ := gives_append hg
    have hp := h p (by simp) ν ρ hh
    have hr := ih _ _ (fun q hq => h q (by simp [hq])) ht
    rw [List.map_cons, Formula.AnyTrue, Tree.HoldsAny, hp, Sql.predicate_size, hr]

/-- The formula of a predicate is true exactly where its tree is. -/
theorem formula_holds (p : Predicate) (hp : p.Proper) (ν ρ : Valuation)
    (hg : Gives p.leaves ν ρ) : p.formula.eval ν = some true ↔ Tree.Holds ρ p := by
  induction p using Tree.induct generalizing ν ρ with
  | leaf f =>
    have hv := hg 0 f rfl
    rw [fragment_condition f (hp f (by simp [Tree.leaves, Tree.fold])), Sql.after_zero,
      Option.map_some, Option.some.injEq] at hv
    change f.formula.eval ν = some true ↔ ρ 0 = some true
    rw [hv]
  | group j ps ih =>
    have hi : ∀ p ∈ ps, ∀ ν ρ, Gives p.leaves ν ρ →
        ((Predicate.formula p).eval ν = some true ↔ Tree.Holds ρ p) :=
      fun p hm => ih p hm (Sql.proper_group hp p hm)
    rw [Tree.leaves_group] at hg
    rw [Predicate.formula, Tree.fold_group]
    cases j with
    | and => exact all_holds ps ν ρ hi hg
    | or => exact any_holds ps ν ρ hi hg

theorem fragment_value (f : Fragment) (v : Truth) :
    ∃ u, ∀ ν : Valuation, ν 0 = u → f.formula.eval ν = v := by
  cases f with
  | property l t => exact ⟨v, fun ν h => h⟩
  | performed rows groups => exact ⟨v, fun ν h => h⟩
  | member rows negated =>
    cases negated with
    | false => exact ⟨v, fun ν h => h⟩
    | true =>
      refine ⟨Truth.not v, fun ν h => ?_⟩
      change Truth.not (ν 0) = v
      rw [h, Sql.not_not_truth]

theorem gives_exists (fs : List Fragment) (h : ∀ f ∈ fs, f.Proper) (ρ : Valuation) :
    ∃ ν, Gives fs ν ρ := by
  have hu (i : Nat) : ∃ u : Truth, ∀ f, fs[i]? = some f →
      ∀ ν : Valuation, ν 0 = u → f.formula.eval ν = ρ i := by
    cases hf : fs[i]? with
    | none => exact ⟨none, by simp⟩
    | some f =>
      obtain ⟨u, hu⟩ := fragment_value f (ρ i)
      refine ⟨u, ?_⟩
      rintro g hg
      obtain rfl : f = g := Option.some.inj hg
      exact hu
  choose ν hν using hu
  refine ⟨ν, ?_⟩
  intro i f hi
  rw [fragment_condition f (h f (List.mem_of_getElem? hi)), Option.map_some]
  exact congrArg some (hν i f hi (Valuation.after ν i) rfl)

/-- What the text `φ` of a compiled tree has in common with the tree: its tests are those of
the leaves, which take all values, and it is true where the tree is. -/
structure Means (allowed : AllowList) (tree : Condition) (p : Predicate) (φ : Sql.Reading) :
    Prop where
  leaves : Tree.Rel (fun l f => ∃ b c, (l.compile allowed).Yields b f c) tree p
  tests : List.Forall₂ (fun f is => (Sql.condition f.render).map Formula.tests = some [is])
    p.leaves φ.tests
  values : ∀ ρ, ∃ ν, Gives p.leaves ν ρ
  meaning : ∀ ν ρ, Gives p.leaves ν ρ → (φ.eval ν = some true ↔ tree.Holds ρ)

theorem lowered_means {allowed : AllowList} {b : Bindings} {room : Nat} {tree : Condition}
    {p : Predicate} {vs : Literals}
    (h : NodeLowers allowed b.stop room b.counter tree p vs) :
    Means allowed tree p p.formula := by
  have hp : p.Proper := node_proper (stop_proper b) h
  refine ⟨node_yields h, ?_, gives_exists p.leaves hp, ?_⟩
  · exact leaf_conditions p hp
  · intro ν ρ hg
    rw [formula_holds p hp ν ρ hg]
    exact (Tree.holds_rel (node_rel h) ρ).symm

/-- A compiled tree and its text are true together, also behind the test on the project. -/
theorem compiled_meaning (allowed : AllowList) (b : Bindings) :
    (∀ (tree : Condition) (p : Predicate) (c : Bindings), (tree.compile allowed).Yields b p c →
      ∃ φ, Sql.condition p.render = some φ ∧ Means allowed tree p φ) ∧
    ∀ (d : Definition) (q : Query), d.listing allowed b = .ok q →
      ∃ p c φ ψ, (d.compile allowed).Yields b p c ∧
      Sql.condition p.render = some φ ∧ Means allowed d.root p φ ∧
      Sql.restriction q.sql = some ψ ∧ ψ = .both (.test projectTest) φ ∧
      ∀ ν ρ, Gives p.leaves (ν.after 1) ρ →
        (ψ.eval ν = some true ↔ ν 0 = some true ∧ d.root.Holds ρ) := by
  have compiled (tree : Condition) (p : Predicate) (c : Bindings)
      (h : (tree.compile allowed).Yields b p c) : p.Proper ∧ Means allowed tree p p.formula := by
    obtain ⟨vs, hl, _⟩ := (yields_node allowed Limits.depth tree b c p).mp h
    exact ⟨node_proper (stop_proper b) hl, lowered_means hl⟩
  constructor
  · intro tree p c h
    obtain ⟨hp, hm⟩ := compiled tree p c h
    exact ⟨p.formula, predicate_condition p hp, hm⟩
  · intro d q hq
    obtain ⟨p, c, h, rfl⟩ := (listing_ok d allowed b q).mp hq
    obtain ⟨hp, hm⟩ := compiled d.root p c h
    have hr := restricted_restriction listing_open hp
    rw [← listing_restricted] at hr
    refine ⟨p, c, p.formula, _, h, predicate_condition p hp, hm, hr, rfl, ?_⟩
    intro ν ρ hg
    have hv := hm.meaning (ν.after 1) ρ hg
    rw [Formula.eval, Sql.and_true_iff]
    change ν 0 = some true ∧ p.formula.eval (ν.after 1) = some true ↔ _
    rw [hv]

/-- Persons in the first cohort, or in every cohort of none, or not in the second one. -/
def nestedDefinition : Definition :=
  ⟨.or, [.leaf (.member ⟨"first", false⟩), .group .and [],
    .group .or [.leaf (.member ⟨"second", true⟩)]]⟩

theorem nested_meaning : ∃ q, nestedDefinition.listing .empty ⟨[], 0, none⟩ = .ok q ∧
    ∃ p φ, Means .empty nestedDefinition.root p φ ∧
      Sql.restriction q.sql = some (.both (.test projectTest) φ) := by
  refine ⟨_, rfl, ?_⟩
  obtain ⟨p, _, φ, _, _, _, hm, hr, rfl, _⟩ :=
    (compiled_meaning .empty ⟨[], 0, none⟩).2 nestedDefinition _ rfl
  exact ⟨p, φ, hm, hr⟩

end CohortQuery
