import CohortQuery.Proofs.Cohort.Lowering
import CohortQuery.Proofs.Sql.Predicate

/-!
# Lowered definitions

What holds of every predicate that a definition is lowered to: its placeholders have proper
names, the statement in each leaf is restricted to the project, and it has the groups of the
definition.
-/

set_option autoImplicit false

namespace CohortQuery

open Sql (Bag Fragment GroupTest Moment Predicate PropertyTest RowTest)

theorem place_proper (stem : String) (n : Nat) (type : ParamType)
    (h : Sql.Wordlike stem) : (place stem n type).Proper := by
  intro c hc
  have hn : (place stem n type).name = Bindings.freshName stem n := rfl
  rw [hn, Bindings.fresh_name_chars, List.mem_append, List.mem_cons] at hc
  rcases hc with hc | rfl | hc
  · exact h c hc
  · rfl
  · have hd : c.isDigit = true := Nat.isDigit_of_mem_toDigits (by omega) (by omega) hc
    simp [Sql.isWordChar, Char.isAlphanum, hd]

theorem stop_proper (b : Bindings) : b.stop.Proper := by
  unfold Bindings.stop
  cases b.dateTo with
  | none => trivial
  | some t => exact (by decide : Bindings.dateToPlaceholder.Proper)

theorem test_proper {property : String} {operand : Option Json} {n : Nat}
    {op : PropertyOperator} {t : PropertyTest} {vs : Literals}
    (h : TestLowers property operand n op t vs) : t.Proper := by
  cases h with
  | isSet => trivial
  | text | number | flag | ordered | like => exact place_proper _ _ _ (by decide)

theorem filters_proper {allowed : AllowList} {n : Nat} {fs : List EventFilter}
    {ts : List RowTest} {vs : Literals} (h : FiltersLower allowed n fs ts vs) :
    ∀ t ∈ ts, t.Proper := by
  induction h with
  | nil => simp
  | cons _ ht _ ih =>
    intro t hm
    rcases List.mem_cons.mp hm with rfl | hm
    · exact test_proper ht
    · exact ih t hm

theorem scope_rows_proper (n : Nat) : ∀ t ∈ scopeRows n, t.Proper := by
  intro t ht
  simp only [scopeRows, List.mem_cons, List.not_mem_nil, or_false] at ht
  rcases ht with rfl | rfl
  · trivial
  · exact place_proper _ _ _ (by decide)

theorem window_start_proper {stop : Moment} (hs : stop.Proper) (n : Nat) :
    (windowStart stop n).Proper := by
  refine ⟨hs, ?_⟩
  intro p hp
  obtain rfl : place "coh_window" n .word = p := Option.some.inj hp
  exact place_proper _ _ _ (by decide)

theorem window_rows_proper {stop : Moment} (hs : stop.Proper) (n : Nat) :
    ∀ t ∈ windowRows stop n, t.Proper := by
  intro t ht
  rcases List.mem_append.mp ht with ht | ht
  · exact scope_rows_proper n t ht
  · simp only [List.mem_cons, List.not_mem_nil, or_false] at ht
    rcases ht with rfl | rfl
    · exact window_start_proper hs (n + 1)
    · exact hs

theorem leaf_proper {allowed : AllowList} {stop : Moment} (hs : stop.Proper) {n : Nat} {l : Leaf}
    {f : Fragment} {vs : Literals} (h : LeafLowers allowed stop n l f vs) : f.Proper := by
  have rows {ts : List RowTest} (ht : ∀ t ∈ ts, t.Proper) :
      ∀ t ∈ windowRows stop n ++ ts, t.Proper := by
    intro t hm
    rcases List.mem_append.mp hm with hm | hm
    · exact window_rows_proper hs n t hm
    · exact ht t hm
  cases h with
  | event _ _ _ hf =>
    refine ⟨rows (filters_proper hf), ?_⟩
    intro t ht
    obtain rfl := List.mem_singleton.mp ht
    exact place_proper _ _ _ (by decide)
  | regular _ _ _ hf =>
    refine ⟨rows (filters_proper hf), ?_⟩
    intro t ht
    obtain rfl := List.mem_singleton.mp ht
    exact place_proper _ _ _ (by decide)
  | person _ ht => exact test_proper ht
  | firstTime =>
    refine ⟨scope_rows_proper n, ?_⟩
    intro t ht
    simp only [List.mem_cons, List.not_mem_nil, or_false] at ht
    rcases ht with rfl | rfl
    · exact window_start_proper hs (n + 1)
    · exact hs
  | member =>
    intro t ht
    simp only [List.mem_cons, List.not_mem_nil, or_false] at ht
    rcases ht with rfl | rfl
    · trivial
    · exact place_proper _ _ _ (by decide)

theorem leaf_restricted {allowed : AllowList} {stop : Moment} {n : Nat} {l : Leaf}
    {f : Fragment} {vs : Literals} {q : Sql.Select} (h : LeafLowers allowed stop n l f vs)
    (hq : f.select? = some q) : .inProject ∈ f.rows := by
  cases h with
  | event => simp [Fragment.rows, windowRows, scopeRows]
  | regular => simp [Fragment.rows, windowRows, scopeRows]
  | person => simp [Fragment.select?] at hq
  | firstTime => simp [Fragment.rows, scopeRows]
  | member => simp [Fragment.rows]

mutual

theorem node_rel {allowed : AllowList} {stop : Moment} {room n : Nat} {m : Condition}
    {p : Predicate} {vs : Literals} (h : NodeLowers allowed stop room n m p vs) :
    Tree.Rel (fun l f => ∃ k us, LeafLowers allowed stop k l f us) m p := by
  cases h with
  | leaf h => exact ⟨n, vs, h⟩
  | group j h => exact ⟨rfl, members_rel h⟩

theorem members_rel {allowed : AllowList} {stop : Moment} {room n : Nat} {ms : List Condition}
    {ps : List Predicate} {vs : Literals} (h : MembersLower allowed stop room n ms ps vs) :
    Tree.RelAll (fun l f => ∃ k us, LeafLowers allowed stop k l f us) ms ps := by
  cases h with
  | nil => trivial
  | cons h hr => exact ⟨node_rel h, members_rel hr⟩

end

theorem node_proper {allowed : AllowList} {stop : Moment} (hs : stop.Proper) {room n : Nat}
    {m : Condition} {p : Predicate} {vs : Literals}
    (h : NodeLowers allowed stop room n m p vs) : p.Proper :=
  Tree.rel_right (node_rel h) fun _ _ ⟨_, _, hl⟩ => leaf_proper hs hl

theorem node_restricted {allowed : AllowList} {stop : Moment} {room n : Nat} {m : Condition}
    {p : Predicate} {vs : Literals} (h : NodeLowers allowed stop room n m p vs) :
    ∀ f ∈ p.leaves, ∀ q, f.select? = some q → .inProject ∈ f.rows :=
  Tree.rel_right (node_rel h) fun _ _ ⟨_, _, hl⟩ _ hq => leaf_restricted hl hq

theorem node_yields {allowed : AllowList} {b : Bindings} {room : Nat} {m : Condition}
    {p : Predicate} {vs : Literals} (h : NodeLowers allowed b.stop room b.counter m p vs) :
    Tree.Rel (fun l f => ∃ c d, (l.compile allowed).Yields c f d) m p := by
  refine Tree.rel_imp ?_ (node_rel h)
  rintro l f ⟨k, us, hl⟩
  let c : Bindings := { b with counter := k }
  exact ⟨c, c.bindAll us, (yields_leaf allowed l c _ f).mpr ⟨us, hl, rfl⟩⟩

end CohortQuery
