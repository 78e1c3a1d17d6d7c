import CohortQuery.Proofs.Compiled
import CohortQuery.Proofs.Numbered
import CohortQuery.Proofs.Sql.Hole

/-!
# Operands of lowered definitions

A lowered tree names the values that it binds once each, in the order in which they are bound.
Besides these it names the project and, where it has a time window, the end of all windows.
-/

set_option autoImplicit false

namespace CohortQuery

open Sql (Fragment GroupTest Moment Predicate PropertyTest RowTest)

def Leaf.isTimed : Leaf → Bool
  | event _ | firstTime _ | regular _ => true
  | person _ | member _ => false

/-- Whether the value is bound to a numbered name, and not to one of the two fixed ones. -/
def Placeholder.isNumbered (p : Placeholder) : Bool :=
  p.name ≠ Bindings.projectName && p.name ≠ Bindings.dateToName

def places (entries : List (String × Value)) : List Placeholder :=
  entries.map fun (name, v) => ⟨name, v.type⟩

theorem places_append (us vs : List (String × Value)) :
    places (us ++ vs) = places us ++ places vs :=
  List.map_append

theorem place_numbered (stem : String) (n : Nat) (type : ParamType) :
    (place stem n type).isNumbered = true := by
  have hp := Bindings.fresh_name_ne stem Bindings.projectName n (by decide)
  have hd := Bindings.fresh_name_ne stem Bindings.dateToName n (by decide)
  simp [Placeholder.isNumbered, place, hp.symm, hd.symm]

/-- Of the placeholders `ps` those with numbers are the ones of the values `vs`, in their order.
The others are the project and the end of the windows, which is there if some is `timed`. -/
structure Names (stop : Moment) (timed : Bool) (n : Nat) (vs : Literals)
    (ps : List Placeholder) : Prop where
  numbered : ps.filter Placeholder.isNumbered = places (Bindings.numbered n vs)
  fixed : ∀ p ∈ ps, p.isNumbered = false →
    p = Bindings.project ∨ (timed = true ∧ p ∈ stop.operands)
  stops : timed = true → stop.operands ⊆ ps

section

variable {stop : Moment} {n : Nat}

theorem names_nil : Names stop false n [] [] :=
  ⟨rfl, by simp, by simp⟩

theorem names_append {s t : Bool} {us vs : Literals} {ps qs : List Placeholder}
    (hp : Names stop s n us ps) (hq : Names stop t (n + us.length) vs qs) :
    Names stop (s || t) n (us ++ vs) (ps ++ qs) := by
  refine ⟨?_, ?_, ?_⟩
  · rw [List.filter_append, hp.numbered, hq.numbered, Bindings.numbered_append, places_append]
  · intro p hm hn
    rcases List.mem_append.mp hm with hm | hm
    · exact (hp.fixed p hm hn).imp_right fun h => ⟨by simp [h.1], h.2⟩
    · exact (hq.fixed p hm hn).imp_right fun h => ⟨by simp [h.1], h.2⟩
  · intro h
    rcases Bool.or_eq_true_iff.mp h with h | h
    · exact fun p hm => List.mem_append_left qs (hp.stops h hm)
    · exact fun p hm => List.mem_append_right ps (hq.stops h hm)

theorem names_project : Names stop false n [] [Bindings.project] := by
  refine ⟨rfl, ?_, by simp⟩
  intro p hp _
  exact .inl (List.mem_singleton.mp hp)

theorem names_value (stem : String) (v : Value) :
    Names stop false n [(stem, v)] [place stem n v.type] := by
  have hn := place_numbered stem n v.type
  refine ⟨?_, ?_, by simp⟩
  · rw [List.filter_cons_of_pos hn]
    rfl
  · intro p hp hf
    obtain rfl := List.mem_singleton.mp hp
    rw [hn] at hf
    cases hf

theorem names_stop (b : Bindings) : Names b.stop true n [] b.stop.operands := by
  refine ⟨?_, fun p hp _ => .inr ⟨rfl, hp⟩, fun _ => List.Subset.refl _⟩
  unfold Bindings.stop
  cases b.dateTo <;> rfl

end

theorem test_operands {property : String} {operand : Option Json} {n : Nat}
    {op : PropertyOperator} {t : PropertyTest} {vs : Literals} {stop : Moment}
    (h : TestLowers property operand n op t vs) : Names stop false n vs t.operands := by
  cases h with
  | isSet => exact names_nil
  | text | number | flag | ordered | like => exact names_value "coh_prop" _

theorem filters_operands {allowed : AllowList} {n : Nat} {fs : List EventFilter}
    {ts : List RowTest} {vs : Literals} {stop : Moment} (h : FiltersLower allowed n fs ts vs) :
    Names stop false n vs (ts.flatMap RowTest.operands) := by
  induction h with
  | nil => exact names_nil
  | cons _ ht _ ih => exact names_append (test_operands ht) ih

theorem scope_operands {stop : Moment} {n : Nat} (event : String) :
    Names stop false n [("coh_event", .text event)] ((scopeRows n).flatMap RowTest.operands) :=
  names_append names_project (names_value "coh_event" (.text event))

theorem start_operands (b : Bindings) {n : Nat} (days : Nat) :
    Names b.stop true n [("coh_window", .word days)] (windowStart b.stop n).operands :=
  names_append (names_stop b) (names_value "coh_window" (.word days))

theorem window_operands (b : Bindings) {n : Nat} (event : String) (days : Nat) :
    Names b.stop true n (windowLiterals event days)
      ((windowRows b.stop n).flatMap RowTest.operands) := by
  have hs := names_append (scope_operands event) (start_operands b (n := n + 1) days)
  have hw := names_append hs (names_stop b)
  simpa [windowRows, windowLiterals, RowTest.operands] using hw

theorem counted_operands (b : Bindings) {n : Nat} {event : String} {days : Nat}
    {allowed : AllowList} {fs : List EventFilter} {ts : List RowTest} {vs : Literals}
    (stem : String) (v : Value) (hf : FiltersLower allowed (n + 2) fs ts vs) :
    Names b.stop true n (windowLiterals event days ++ vs ++ [(stem, v)])
      ((windowRows b.stop n ++ ts).flatMap RowTest.operands ++
        [place stem (n + 2 + vs.length) v.type]) := by
  have hr := names_append (window_operands b event days) (filters_operands hf)
  have hl : n + (windowLiterals event days ++ vs).length = n + 2 + vs.length := by
    rw [List.length_append, ← Nat.add_assoc]
    rfl
  have hv : Names b.stop false (n + (windowLiterals event days ++ vs).length) [(stem, v)]
      [place stem (n + 2 + vs.length) v.type] := by
    rw [hl]
    exact names_value stem v
  rw [List.flatMap_append]
  exact names_append hr hv

theorem leaf_operands {allowed : AllowList} {b : Bindings} {n : Nat} {l : Leaf} {f : Fragment}
    {vs : Literals} (h : LeafLowers allowed b.stop n l f vs) :
    Names b.stop l.isTimed n vs f.operands := by
  cases h with
  | event _ _ _ hf => exact counted_operands b "coh_count" _ hf
  | regular _ _ _ hf => exact counted_operands b "coh_min" _ hf
  | person _ ht => exact test_operands ht
  | @firstTime c =>
    have hs := names_append (scope_operands c.event) (start_operands b (n := n + 1) c.windowDays)
    have hw := names_append hs (names_stop b)
    simpa [Fragment.operands, GroupTest.operands, windowLiterals, Leaf.isTimed] using hw
  | @member c => exact names_append names_project (names_value "coh_cohort" (.text c.cohort))

mutual

theorem node_operands {allowed : AllowList} {b : Bindings} {room n : Nat} {m : Condition}
    {p : Predicate} {vs : Literals} (h : NodeLowers allowed b.stop room n m p vs) :
    Names b.stop (m.leaves.any Leaf.isTimed) n vs p.operands := by
  cases h with
  | leaf h => simpa [Tree.leaves, Tree.fold, Predicate.operands] using leaf_operands h
  | group j h =>
    have hm := members_operands h
    rwa [Tree.leaves_group, Predicate.operands, Tree.leaves_group, List.flatMap_assoc]

theorem members_operands {allowed : AllowList} {b : Bindings} {room n : Nat}
    {ms : List Condition} {ps : List Predicate} {vs : Literals}
    (h : MembersLower allowed b.stop room n ms ps vs) :
    Names b.stop ((ms.flatMap Tree.leaves).any Leaf.isTimed) n vs
      (ps.flatMap Predicate.operands) := by
  cases h with
  | nil => exact names_nil
  | cons h hr =>
    rw [List.flatMap_cons, List.any_append, List.flatMap_cons]
    exact names_append (node_operands h) (members_operands hr)

end

end CohortQuery
