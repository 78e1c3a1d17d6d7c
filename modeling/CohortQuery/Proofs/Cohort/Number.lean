import CohortQuery.Proofs.Cohort.Definition
import CohortQuery.Proofs.Decimal.Reading
import CohortQuery.Proofs.Fresh

/-!
# Numbers of definitions

The numbers in a definition that was read fit their formats. Of the operands of its leaves these
are bound, and so every number among the parameters of a statement is finite and of the format.
-/

set_option autoImplicit false

namespace CohortQuery

open Json (Fields Form)
open Sql (Fragment Moment Predicate PropertyTest RowTest)

/-- An operand that is a number fits its format. -/
def Fits (operand : Option Json) : Prop :=
  ∀ n, operand = some (.number n) → n.InRange

def Value.Exact : Value → Prop
  | real x => x.Exact
  | text _ | word _ | integer _ | uuid _ | time _ => True

section

variable {depth : Nat} {fields : Fields} (hl : (Json.object fields).Legible depth)

theorem operand_fits {v : Json} {o : Option Json} (hv : v.Legible depth)
    (h : Form.operand v o) : Fits o := by
  rintro n rfl
  rcases h with ⟨_, h⟩ | ⟨_, h⟩
  · cases h
  · obtain rfl := Option.some.inj h
    cases hv with
    | number _ hn => exact hn

include hl

theorem defaulted_holds {α : Type} {f : Form α} {name : String} {absent a : α} {P : α → Prop}
    (hf : ∀ v, v.Legible (depth + 1) → f v a → P a) (ha : P absent)
    (h : f.Defaulted fields name absent a) : P a := by
  rcases h with ⟨v, hv, h⟩ | ⟨_, rfl⟩
  · exact hf v ((Json.legible_object.mp hl).2.2 _ hv) h
  · exact ha

theorem operand_defaulted {o : Option Json} (h : Form.operand.Defaulted fields "value" none o) :
    Fits o :=
  defaulted_holds hl (fun _ => operand_fits) (by simp [Fits]) h

omit hl in
theorem filter_fits {v : Json} {f : EventFilter} (hv : v.Legible depth)
    (h : EventFilter.Written v f) : Fits f.operand := by
  cases h with
  | object _ _ operand => exact operand_defaulted hv operand
  | property | operator => simp [Fits]
  | operand _ _ ho => exact operand_fits ((Json.legible_list.mp hv).2 _ (by simp)) ho

omit hl in
theorem written_value {α : Type} {f : Form α} {vs : List Json} {as : List α}
    (hv : ∀ v ∈ vs, v.Legible depth) (h : List.Forall₂ f vs as) :
    ∀ a ∈ as, ∃ v, v.Legible depth ∧ f v a :=
  Json.forall₂_left ((List.forall₂_and_left vs as).mpr ⟨hv, h⟩).flip

theorem filters_fit {fs : List EventFilter}
    (h : (Form.list EventFilter.Written).Defaulted fields "event_filters" [] fs) :
    ∀ o ∈ fs.map EventFilter.operand, Fits o := by
  have list (v : Json) (hv : v.Legible (depth + 1)) (hw : Form.list EventFilter.Written v fs) :
      ∀ f ∈ fs, Fits f.operand := by
    obtain ⟨items, rfl, hw⟩ := hw
    intro f hf
    obtain ⟨w, hl, hw⟩ := written_value (Json.legible_list.mp hv).2 hw f hf
    exact filter_fits hl hw
  rw [List.forall_mem_map]
  exact defaulted_holds (P := fun fs => ∀ f ∈ fs, Fits f.operand) hl list (by simp) h

theorem leaf_fits {l : Leaf} (h : l.Written fields) : ∀ o ∈ l.operands, Fits o := by
  cases l with
  | event c => exact filters_fit hl h.filters
  | person c => exact List.forall_mem_singleton.mpr (operand_defaulted hl h.operand)
  | regular c => exact filters_fit hl h.filters
  | firstTime c | member c => exact List.forall_mem_nil _

end

theorem tree_fits {c : Condition} {depth : Nat} {v : Json} (hv : v.Legible depth)
    (h : Tree.Written v c) : ∀ l ∈ c.leaves, ∀ o ∈ l.operands, Fits o := by
  induction c using Tree.induct generalizing depth v with
  | leaf l =>
    cases h with
    | leaf _ hw => exact List.forall_mem_singleton.mpr (leaf_fits hv hw)
  | group j ms ih =>
    cases h with
    | @group _ _ _ vs _ _ _ values hw =>
      rw [Tree.leaves_group]
      intro l hl
      obtain ⟨m, hm, hl⟩ := List.mem_flatMap.mp hl
      cases values with
      | absent | null =>
        cases hw
        cases hm
      | list hvs =>
        have hlist := Json.legible_list.mp ((Json.legible_object.mp hv).2.2 _ hvs)
        obtain ⟨w, hlw, hww⟩ := written_value hlist.2 hw m hm
        exact ih m hm hlw hww l hl

/-- The operands of a definition that was read fit their formats. -/
theorem read_fits {s : String} {d : Definition} (h : Definition.read s = .ok d) :
    ∀ l ∈ d.root.leaves, ∀ o ∈ l.operands, Fits o := by
  obtain ⟨_, v, hv, hw, _⟩ := (text_read s d).mp h
  exact tree_fits (Json.read_legible hv) hw

theorem spelled_proper {operand : Option Json} (hf : Fits operand) {x : Binary64}
    (h : operand.bind Json.spelled? = some x) : x.Proper := by
  obtain ⟨v, rfl, hx⟩ := Option.bind_eq_some_iff.mp h
  unfold Json.spelled? at hx
  split at hx
  next i =>
    obtain rfl := Option.some.inj hx
    exact Binary64.quotient_proper _ _ Nat.one_pos
  next y =>
    obtain rfl := Option.some.inj hx
    exact hf _ rfl
  next => exact Binary64.number_proper hx
  next => cases hx

theorem number_exact {property : String} {operand : Option Json} (hf : Fits operand)
    {x : Binary64} (h : numberOperand property operand = .ok x) : x.Exact := by
  refine ⟨spelled_proper hf (number_value h), ?_⟩
  unfold numberOperand at h
  dsimp only at h
  split at h
  next =>
    split at h
    next hx => exact Except.ok.inj h ▸ hx
    next => cases h
  next => cases h

theorem scalar_exact {property : String} {operand : Option Json} (hf : Fits operand)
    {x : Binary64} (h : Scalar.ofOperand property operand = .ok (.number x)) : x.Exact := by
  unfold Scalar.ofOperand at h
  split at h
  next => cases h
  next i =>
    obtain rfl := Scalar.number.inj (Except.ok.inj h)
    obtain ⟨low, high⟩ := hf _ rfl
    have low' : ((Decimal.twoTo 63 : Nat) : Int) = 2 ^ 63 := rfl
    have high' : ((Decimal.twoTo 64 : Nat) : Int) = 2 ^ 64 := rfl
    exact Binary64.of_int_exact (by omega) (by omega)
  next y =>
    split at h
    next hx =>
      obtain rfl := Scalar.number.inj (Except.ok.inj h)
      exact ⟨hf _ rfl, hx⟩
    next => cases h
  all_goals cases h

theorem test_exact {property : String} {operand : Option Json} (hf : Fits operand) {n : Nat}
    {op : PropertyOperator} {t : PropertyTest} {vs : Literals}
    (h : TestLowers property operand n op t vs) : ∀ e ∈ vs, e.2.Exact := by
  cases h with
  | text | flag | like => exact List.forall_mem_singleton.mpr trivial
  | number _ h => exact List.forall_mem_singleton.mpr (scalar_exact hf h)
  | ordered _ h => exact List.forall_mem_singleton.mpr (number_exact hf h)
  | isSet => exact List.forall_mem_nil _

section

variable {allowed : AllowList} {stop : Moment} {n : Nat}

theorem filters_exact {fs : List EventFilter} {ts : List RowTest} {vs : Literals}
    (hf : ∀ o ∈ fs.map EventFilter.operand, Fits o) (h : FiltersLower allowed n fs ts vs) :
    ∀ e ∈ vs, e.2.Exact := by
  induction h with
  | nil => exact List.forall_mem_nil _
  | cons _ ht _ ih =>
    obtain ⟨hf, hr⟩ := List.forall_mem_cons.mp hf
    exact List.forall_mem_append.mpr ⟨test_exact hf ht, ih hr⟩

theorem leaf_exact {l : Leaf} {f : Fragment} {vs : Literals} (hf : ∀ o ∈ l.operands, Fits o)
    (h : LeafLowers allowed stop n l f vs) : ∀ e ∈ vs, e.2.Exact := by
  have window (event : String) (days : Nat) : ∀ e ∈ windowLiterals event days, e.2.Exact := by
    simp [windowLiterals, Value.Exact]
  have counted {event stem : String} {days count : Nat} {us : Literals}
      (hu : ∀ e ∈ us, e.2.Exact) :
      ∀ e ∈ windowLiterals event days ++ us ++ [(stem, Value.word count)], e.2.Exact :=
    List.forall_mem_append.mpr
      ⟨List.forall_mem_append.mpr ⟨window event days, hu⟩, List.forall_mem_singleton.mpr trivial⟩
  cases h with
  | event _ _ _ h => exact counted (filters_exact hf h)
  | regular _ _ _ h => exact counted (filters_exact hf h)
  | person _ h => exact test_exact (hf _ List.mem_cons_self) h
  | firstTime => exact window _ _
  | member => exact List.forall_mem_singleton.mpr trivial

end

section

variable {allowed : AllowList} {stop : Moment}

mutual

theorem node_exact {room n : Nat} {m : Condition} {p : Predicate} {vs : Literals}
    (hf : ∀ l ∈ m.leaves, ∀ o ∈ l.operands, Fits o)
    (h : NodeLowers allowed stop room n m p vs) : ∀ e ∈ vs, e.2.Exact := by
  cases h with
  | leaf h => exact leaf_exact (hf _ List.mem_cons_self) h
  | group j h =>
    rw [Tree.leaves_group] at hf
    exact members_exact hf h

theorem members_exact {room n : Nat} {ms : List Condition} {ps : List Predicate} {vs : Literals}
    (hf : ∀ l ∈ ms.flatMap Tree.leaves, ∀ o ∈ l.operands, Fits o)
    (h : MembersLower allowed stop room n ms ps vs) : ∀ e ∈ vs, e.2.Exact := by
  cases h with
  | nil => exact List.forall_mem_nil _
  | cons h hr =>
    rw [List.flatMap_cons, List.forall_mem_append] at hf
    exact List.forall_mem_append.mpr ⟨node_exact hf.1 h, members_exact hf.2 hr⟩

end

end

/-- Parameters in the order of their names. Their numbers are exact, and under the name of the
date there is a time. -/
structure Params.Ordinary (params : Params) : Prop where
  sorted : Text.Sorted (params.map Prod.fst)
  exact : ∀ e ∈ params, e.2.Exact
  date : ∀ v, (Bindings.dateToName, v) ∈ params → v.type = .time

theorem mem_bound {params : Params} {name : String} {v : Value} {e : String × Value}
    (h : e ∈ params.set name v) : e = (name, v) ∨ e ∈ params := by
  induction params with
  | nil => exact .inl (List.mem_singleton.mp h)
  | cons p params ih =>
    obtain ⟨k, w⟩ := p
    rw [Params.set] at h
    split at h
    next => exact (List.mem_cons.mp h).imp_right (List.mem_cons_of_mem _)
    next =>
      split at h
      next => exact List.mem_cons.mp h
      next =>
        rcases List.mem_cons.mp h with rfl | h
        · exact .inr List.mem_cons_self
        · exact (ih h).imp_right (List.mem_cons_of_mem _)

theorem set_ordinary {params : Params} (h : params.Ordinary) {name : String} {v : Value}
    (hv : v.Exact) (hd : name ≠ Bindings.dateToName) : (params.set name v).Ordinary := by
  refine ⟨?_, fun e he => ?_, fun w hw => ?_⟩
  · rw [set_names]
    exact Text.insert_sorted name h.sorted
  · rcases mem_bound he with rfl | he
    · exact hv
    · exact h.exact e he
  · rcases mem_bound hw with he | hw
    · exact absurd (congrArg Prod.fst he).symm hd
    · exact h.date w hw

theorem bind_all_ordinary {b : Bindings} (h : b.params.Ordinary) {vs : Literals}
    (hv : ∀ e ∈ vs, e.2.Exact) : (b.bindAll vs).params.Ordinary := by
  induction vs generalizing b with
  | nil => exact h
  | cons e vs ih =>
    obtain ⟨he, hv⟩ := List.forall_mem_cons.mp hv
    have name := Bindings.fresh_name_ne e.1 Bindings.dateToName b.counter (by decide)
    exact ih (b := (b.bind e.1 e.2).2) (set_ordinary h he name.symm) hv

theorem scope_ordinary {params : Params} (h : params.Ordinary) :
    (Materialization.scopeParams params).Ordinary := by
  have sub : (Materialization.scopeParams params).Sublist params := List.filter_sublist
  exact ⟨h.sorted.sublist (sub.map Prod.fst), fun e he => h.exact e (sub.subset he),
    fun v hv => h.date v (sub.subset hv)⟩

theorem start_ordinary {projectId : String} {dateTo : Option String} {b : Bindings}
    (hb : Bindings.start projectId dateTo = .ok b) : b.params.Ordinary := by
  have sorted := Bindings.start_sorted hb
  have name : Bindings.dateToName ≠ Bindings.projectName := by decide
  obtain ⟨u, _, ⟨-, rfl⟩ | ⟨_, t, -, -, rfl⟩⟩ := (start_ok _ _ _).mp hb
  · exact ⟨sorted, by simp [Bindings.opened, Value.Exact], by simp [Bindings.opened, name]⟩
  · refine ⟨sorted, by simp [Bindings.opened, Value.Exact], fun v hv => ?_⟩
    obtain rfl : v = .time t := by simpa [Bindings.opened, name] using hv
    rfl

theorem compiled_ordinary {projectId : String} {dateTo : Option String} {b c : Bindings}
    (hb : Bindings.start projectId dateTo = .ok b) {d : Definition}
    (hf : ∀ l ∈ d.root.leaves, ∀ o ∈ l.operands, Fits o) {allowed : AllowList} {p : Predicate}
    (h : (d.compile allowed).Yields b p c) : c.params.Ordinary := by
  obtain ⟨vs, hl, rfl⟩ := (yields_node allowed Limits.depth d.root b c p).mp h
  exact bind_all_ordinary (start_ordinary hb) (node_exact hf hl)

end CohortQuery
