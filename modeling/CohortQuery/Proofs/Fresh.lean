import CohortQuery.Proofs.Cohort.Literals
import CohortQuery.Proofs.Text.Sorted
import CohortQuery.Proofs.Uuid

/-!
# Fresh names among fixed ones

Values are bound to fresh names and to fixed ones, mixed in any way. As long as no fixed name ends
in a number, a fresh name is that of one value only. So a value is lost only if another one is
bound to its fixed name.
-/

set_option autoImplicit false

namespace CohortQuery

theorem set_names (params : Params) (name : String) (v : Value) :
    (params.set name v).map Prod.fst = Text.insertSorted name (params.map Prod.fst) := by
  induction params with
  | nil => rfl
  | cons e params ih =>
    obtain ⟨k, w⟩ := e
    rw [Params.set, List.map_cons, Text.insertSorted, ← ih]
    split
    next h => rw [List.map_cons, h]
    next => split <;> rfl

namespace Bindings

/-- The name ends in an underscore and decimal digits. -/
def EndsNumbered (name : String) : Prop :=
  ∃ stem digits : List Char, name.toList = stem ++ '_' :: digits ∧ digits ≠ [] ∧
    ∀ c ∈ digits, c.isDigit = true

theorem ends_numbered_iff (name : String) :
    EndsNumbered name ↔ (numberOf? name).isSome = true := by
  constructor
  · rintro ⟨stem, digits, hn, hne, hd⟩
    have hr : name.toList.reverse = digits.reverse ++ '_' :: stem.reverse := by
      rw [hn, List.reverse_append, List.reverse_cons, List.append_assoc]
      rfl
    have hd : ∀ c ∈ digits.reverse, c.isDigit = true := fun c hc =>
      hd c (List.mem_reverse.mp hc)
    have hu : ('_' : Char).isDigit = false := by decide
    rw [numberOf?, hr, List.takeWhile_append_of_pos hd, List.dropWhile_append_of_pos hd]
    simp [hu, hne]
  · intro h
    have hs := List.takeWhile_append_dropWhile (p := Char.isDigit) (l := name.toList.reverse)
    rw [numberOf?] at h
    split at h
    next stem hd =>
      rw [hd] at hs
      refine ⟨stem.reverse, (name.toList.reverse.takeWhile Char.isDigit).reverse, ?_, ?_, ?_⟩
      · have hr := congrArg List.reverse hs
        simpa using hr.symm
      · intro he
        rw [List.reverse_eq_nil_iff] at he
        rw [if_pos (List.isEmpty_iff.mpr he)] at h
        cases h
      · intro c hc
        exact List.mem_takeWhile_imp (List.mem_reverse.mp hc)
    next => cases h

instance : DecidablePred EndsNumbered := fun name =>
  decidable_of_iff _ (ends_numbered_iff name).symm

theorem fresh_name_ends (stem : String) (n : Nat) : EndsNumbered (freshName stem n) := by
  rw [ends_numbered_iff, number_fresh]
  rfl

theorem numbered_ends {n : Nat} {vs : List (String × Value)} {name : String}
    (h : name ∈ (numbered n vs).map Prod.fst) : EndsNumbered name := by
  obtain ⟨stem, k, _, rfl⟩ := numbered_number h
  exact fresh_name_ends stem k

theorem numbered_length (n : Nat) (vs : List (String × Value)) :
    (numbered n vs).length = vs.length := by
  induction vs generalizing n with
  | nil => rfl
  | cons v vs ih => rw [numbered, List.length_cons, ih, List.length_cons]

/-- A value is bound to a fresh name or to a fixed one. -/
inductive Call where
  | fresh (stem : String) (v : Value)
  | fixed (name : String) (v : Value)

def answer (b : Bindings) : Call → Placeholder × Bindings
  | .fresh stem v => b.bind stem v
  | .fixed name v => b.bindNamed name v

def after (b : Bindings) (calls : List Call) : Bindings :=
  calls.foldl (fun b call => (b.answer call).2) b

def handed (b : Bindings) : List Call → List (Placeholder × Value)
  | [] => []
  | .fresh stem v :: calls =>
    ((b.answer (.fresh stem v)).1, v) :: (b.answer (.fresh stem v)).2.handed calls
  | .fixed name v :: calls => (b.answer (.fixed name v)).2.handed calls

def freshOf : List Call → List (String × Value)
  | [] => []
  | .fresh stem v :: calls => (stem, v) :: freshOf calls
  | .fixed _ _ :: calls => freshOf calls

def fixedOf : List Call → List (String × Value)
  | [] => []
  | .fresh _ _ :: calls => fixedOf calls
  | .fixed name v :: calls => (name, v) :: fixedOf calls

def lastValue? (entries : List (String × Value)) (name : String) : Option Value :=
  entries.reverse.lookup name

theorem last_value_append (entries : List (String × Value)) (name other : String) (v : Value) :
    lastValue? (entries ++ [(name, v)]) other =
      if other = name then some v else lastValue? entries other := by
  rw [lastValue?, List.reverse_append, List.reverse_singleton, List.singleton_append,
    List.lookup_cons]
  by_cases h : other = name
  · simp [h]
  · have hb : (other == name) = false := by simpa using h
    rw [hb, if_neg h]
    rfl

theorem last_value_exists {entries : List (String × Value)} {name : String}
    (h : name ∈ entries.map Prod.fst) : ∃ v, lastValue? entries name = some v := by
  obtain ⟨e, he, rfl⟩ := List.mem_map.mp h
  refine Option.isSome_iff_exists.mp (List.lookup_isSome_iff.mpr ?_)
  exact ⟨e, List.mem_reverse.mpr he, beq_self_eq_true e.1⟩

theorem last_value_sorted {params : Params} (h : Text.Sorted (params.map Prod.fst))
    (name : String) : lastValue? params name = params.get? name := by
  unfold Params.get?
  induction params with
  | nil => rfl
  | cons e params ih =>
    obtain ⟨k, v⟩ := e
    have hk : k ∉ params.map Prod.fst := (List.nodup_cons.mp (Text.sorted_nodup h)).1
    have hs := ih (List.pairwise_cons.mp h).2
    rw [lastValue?] at hs
    rw [lastValue?, List.reverse_cons, List.lookup_append, hs, List.lookup_cons]
    by_cases hn : name = k
    · subst hn
      -- The last value comes first in the reverse, and here it is the one entry at the end.
      have hl : params.lookup name = none := by
        rw [List.lookup_eq_none_iff]
        intro p hp
        have hne : name ≠ p.1 := by
          rintro rfl
          exact hk (List.mem_map_of_mem hp)
        simpa using hne
      simp [hl]
    · have hb : (name == k) = false := by simpa using hn
      simp [hb, List.lookup_cons]

/-- All values with fresh names are there, and of those with fixed names the last ones. -/
structure Holds (b : Bindings) (fresh fixed : List (String × Value)) : Prop where
  counter : b.counter = fresh.length
  kept : b.params.Has (numbered 0 fresh)
  last : ∀ name ∈ fixed.map Prod.fst, b.params.get? name = lastValue? fixed name
  names : ∀ name, name ∈ b.params.map Prod.fst ↔
    name ∈ (numbered 0 fresh).map Prod.fst ∨ name ∈ fixed.map Prod.fst
  sorted : Text.Sorted (b.params.map Prod.fst)

section

variable {b : Bindings} {fresh fixed : List (String × Value)}

theorem bind_holds (h : b.Holds fresh fixed)
    (hf : ∀ name ∈ fixed.map Prod.fst, ¬ EndsNumbered name) (stem : String) (v : Value) :
    (b.bind stem v).2.Holds (fresh ++ [(stem, v)]) fixed := by
  have hp : (b.bind stem v).2.params = b.params.set (freshName stem b.counter) v := rfl
  have hn : numbered 0 (fresh ++ [(stem, v)]) =
      numbered 0 fresh ++ [(freshName stem b.counter, v)] := by
    rw [numbered_append, h.counter, Nat.zero_add]
    rfl
  -- The new number is above those before it, so nothing that is kept has the new name.
  have hd := numbered_nodup 0 (fresh ++ [(stem, v)])
  rw [hn, List.map_append, List.nodup_append] at hd
  refine ⟨?_, ?_, ?_, ?_, ?_⟩
  · rw [List.length_append, ← h.counter]
    rfl
  · rw [hn, has_append, hp]
    constructor
    · intro e he
      have hne : e.1 ≠ freshName stem b.counter :=
        hd.2.2 _ (List.mem_map_of_mem he) _ (by simp)
      rw [get_set_other _ _ _ _ hne]
      exact h.kept e he
    · intro e he
      obtain rfl := List.mem_singleton.mp he
      exact get_set _ _ _
  · intro name hm
    have hne : name ≠ freshName stem b.counter := by
      rintro rfl
      exact hf _ hm (fresh_name_ends stem b.counter)
    rw [hp, get_set_other _ _ _ _ hne]
    exact h.last name hm
  · intro name
    rw [hp, set_names, Text.mem_insert_sorted, h.names, hn]
    simp [or_left_comm, or_comm]
  · rw [hp, set_names]
    exact Text.insert_sorted _ h.sorted

theorem bind_named_holds (h : b.Holds fresh fixed) {name : String} (hf : ¬ EndsNumbered name)
    (v : Value) : (b.bindNamed name v).2.Holds fresh (fixed ++ [(name, v)]) := by
  have hp : (b.bindNamed name v).2.params = b.params.set name v := rfl
  refine ⟨h.counter, ?_, ?_, ?_, ?_⟩
  · intro e he
    have hne : e.1 ≠ name := by
      rintro rfl
      exact hf (numbered_ends (List.mem_map_of_mem he))
    rw [hp, get_set_other _ _ _ _ hne]
    exact h.kept e he
  · intro other hm
    rw [hp, last_value_append]
    split
    next he =>
      subst he
      exact get_set _ _ _
    next hne =>
      rw [get_set_other _ _ _ _ hne]
      refine h.last other ?_
      simpa [hne] using hm
  · intro other
    rw [hp, set_names, Text.mem_insert_sorted, h.names]
    simp [or_assoc, or_comm]
  · rw [hp, set_names]
    exact Text.insert_sorted _ h.sorted

theorem after_holds (h : b.Holds fresh fixed)
    (hf : ∀ name ∈ fixed.map Prod.fst, ¬ EndsNumbered name) (calls : List Call)
    (hc : ∀ name ∈ (fixedOf calls).map Prod.fst, ¬ EndsNumbered name) :
    (b.after calls).Holds (fresh ++ freshOf calls) (fixed ++ fixedOf calls) := by
  induction calls generalizing b fresh fixed with
  | nil =>
    rw [freshOf, fixedOf, List.append_nil, List.append_nil]
    exact h
  | cons call calls ih =>
    cases call with
    | fresh stem v =>
      rw [freshOf, fixedOf, List.append_cons]
      exact ih (bind_holds h hf stem v) hf hc
    | fixed name v =>
      rw [fixedOf, List.map_cons, List.forall_mem_cons] at hc
      rw [freshOf, fixedOf, List.append_cons]
      refine ih (bind_named_holds h hc.1 v) ?_ hc.2
      intro other hm
      rw [List.map_append, List.mem_append] at hm
      rcases hm with hm | hm
      · exact hf other hm
      · obtain rfl := List.mem_singleton.mp hm
        exact hc.1

theorem holds_size (h : b.Holds fresh fixed)
    (hf : ∀ name ∈ fixed.map Prod.fst, ¬ EndsNumbered name) :
    b.params.length = b.counter + (fixed.map Prod.fst).toFinset.card := by
  have hn : (b.params.map Prod.fst).toFinset =
      ((numbered 0 fresh).map Prod.fst).toFinset ∪ (fixed.map Prod.fst).toFinset := by
    ext name
    rw [Finset.mem_union, List.mem_toFinset, List.mem_toFinset, List.mem_toFinset]
    exact h.names name
  have hd : Disjoint ((numbered 0 fresh).map Prod.fst).toFinset
      (fixed.map Prod.fst).toFinset := by
    rw [Finset.disjoint_left]
    intro name hm hx
    exact hf name (List.mem_toFinset.mp hx) (numbered_ends (List.mem_toFinset.mp hm))
  have hl : ((numbered 0 fresh).map Prod.fst).toFinset.card = fresh.length := by
    rw [List.toFinset_card_of_nodup (numbered_nodup 0 fresh), List.length_map, numbered_length]
  rw [← List.length_map Prod.fst, Text.sorted_card h.sorted, hn, Finset.card_union_of_disjoint hd,
    hl, h.counter]

end

theorem handed_numbered (b : Bindings) (calls : List Call) :
    b.handed calls =
      (numbered b.counter (freshOf calls)).map fun (name, v) => (⟨name, v.type⟩, v) := by
  induction calls generalizing b with
  | nil => rfl
  | cons call calls ih =>
    cases call with
    | fresh stem v =>
      rw [handed, ih]
      rfl
    | fixed name v =>
      rw [handed, ih]
      rfl

theorem start_apart {projectId : String} {dateTo : Option String} {b : Bindings}
    (hb : start projectId dateTo = .ok b) :
    ∀ name ∈ b.params.map Prod.fst, ¬ EndsNumbered name := by
  intro name hm
  rw [ends_numbered_iff, (start_unnumbered hb).names name hm]
  exact Bool.false_ne_true

theorem start_sorted {projectId : String} {dateTo : Option String} {b : Bindings}
    (hb : start projectId dateTo = .ok b) : Text.Sorted (b.params.map Prod.fst) := by
  rcases start_names hb with hn | hn <;>
    rw [hn] <;> decide

theorem start_holds {projectId : String} {dateTo : Option String} {b : Bindings}
    (hb : start projectId dateTo = .ok b) : b.Holds [] b.params := by
  have hs := start_sorted hb
  refine ⟨(started hb).counter, by simp [Params.Has, numbered], ?_, by simp [numbered], hs⟩
  exact fun name _ => (last_value_sorted hs name).symm

/-- In a new statement values are bound to fresh names and to fixed ones that do not end in
numbers, in any order. The fresh names are different from each other and from all fixed ones, so
that in the end each has its value, and each fixed name has the last of its values. -/
theorem fresh_names_apart (projectId : String) (dateTo : Option String) (b : Bindings)
    (hb : start projectId dateTo = .ok b) (calls : List Call)
    (hf : ∀ name ∈ (fixedOf calls).map Prod.fst, ¬ EndsNumbered name) :
    let d := b.after calls
    let fixed := b.params ++ fixedOf calls
    ((b.handed calls).map fun h => h.1.name).Nodup ∧
    (∀ h ∈ b.handed calls, h.1.name ∉ fixed.map Prod.fst ∧ h.1.type = h.2.type ∧
      d.params.get? h.1.name = some h.2) ∧
    (∀ name ∈ fixed.map Prod.fst, ∃ v,
      lastValue? fixed name = some v ∧ d.params.get? name = some v) ∧
    d.counter = (freshOf calls).length ∧
    d.params.length = d.counter + (fixed.map Prod.fst).toFinset.card := by
  intro d fixed
  have hd : d.Holds (freshOf calls) fixed := after_holds (start_holds hb) (start_apart hb) calls hf
  have apart : ∀ name ∈ fixed.map Prod.fst, ¬ EndsNumbered name := by
    rw [List.map_append, List.forall_mem_append]
    exact ⟨start_apart hb, hf⟩
  have hh := handed_numbered b calls
  rw [(started hb).counter] at hh
  refine ⟨?_, ?_, ?_, hd.counter, holds_size hd apart⟩
  · rw [hh, List.map_map]
    exact numbered_nodup 0 (freshOf calls)
  · intro h hm
    rw [hh] at hm
    obtain ⟨e, he, rfl⟩ := List.mem_map.mp hm
    refine ⟨?_, rfl, hd.kept e he⟩
    exact fun hx => apart e.1 hx (numbered_ends (List.mem_map_of_mem he))
  · intro name hm
    obtain ⟨v, hv⟩ := last_value_exists hm
    exact ⟨v, hv, (hd.last name hm).trans hv⟩

def mixedCalls : List Call :=
  [.fresh "coh_event" (.text "signup"), .fixed "limit" (.word 5), .fresh "coh_event_0" (.word 7),
    .fixed "coh_event_" (.text "none"), .fresh "" (.integer (-1)), .fixed "limit" (.word 9),
    .fresh "coh_event" (.text "login")]

theorem mixed_apart : ∃ b,
    start "6f1c2b8e-3d4a-4e5f-8a9b-0c1d2e3f4a5b" none = .ok b ∧
    (∀ name ∈ (fixedOf mixedCalls).map Prod.fst, ¬ EndsNumbered name) ∧
    b.handed mixedCalls = [(⟨"coh_event_0", .text⟩, .text "signup"),
      (⟨"coh_event_0_1", .word⟩, .word 7), (⟨"_2", .integer⟩, .integer (-1)),
      (⟨"coh_event_3", .text⟩, .text "login")] ∧
    (b.after mixedCalls).params.get? "coh_event_0" = some (.text "signup") ∧
    (b.after mixedCalls).params.get? "limit" = some (.word 9) ∧
    (b.after mixedCalls).counter = 4 ∧ (b.after mixedCalls).params.length = 7 := by
  obtain ⟨u, hu⟩ : ∃ u, Uuid.read (Text.trim "6f1c2b8e-3d4a-4e5f-8a9b-0c1d2e3f4a5b") = some u :=
    Option.isSome_iff_exists.mp (Uuid.grouped_known (by decide))
  have hb : start "6f1c2b8e-3d4a-4e5f-8a9b-0c1d2e3f4a5b" none =
      .ok ⟨[(projectName, .uuid u.render)], 0, none⟩ :=
    (Binder.except_bind _ _ _).mpr ⟨_, (project_ok _ _).mpr ⟨u, hu, rfl⟩, rfl⟩
  have hf : ∀ name ∈ (fixedOf mixedCalls).map Prod.fst, ¬ EndsNumbered name := by decide
  obtain ⟨_, kept, last, counted, sized⟩ := fresh_names_apart _ _ _ hb mixedCalls hf
  have hs : numbered 0 (freshOf mixedCalls) = [("coh_event_0", .text "signup"),
      ("coh_event_0_1", .word 7), ("_2", .integer (-1)), ("coh_event_3", .text "login")] := by
    decide
  have hh := (handed_numbered ⟨[(projectName, .uuid u.render)], 0, none⟩ mixedCalls).trans
    (congrArg (List.map _) hs)
  have hn : (["project_id", "limit", "coh_event_", "limit"] : List String).toFinset.card = 3 := by
    decide
  obtain ⟨v, hv, limit⟩ := last "limit" (by simp [fixedOf, mixedCalls])
  obtain rfl : Value.word 9 = v := Option.some.inj hv
  refine ⟨_, hb, hf, hh, ?_, limit, counted, ?_⟩
  · refine (kept (⟨"coh_event_0", .text⟩, .text "signup") ?_).2.2
    rw [hh]
    exact List.mem_cons_self
  · exact sized.trans (congrArg₂ (· + ·) counted hn)

end Bindings

end CohortQuery
