import CohortQuery.Cohort.Encode
import CohortQuery.Proofs.Cohort.Definition

/-!
# Definitions and their encodings

An encoded definition is read as the definition that it is the encoding of. The encoding is
written in the grammar of definitions, so nothing is said of reading here.
-/

set_option autoImplicit false

namespace CohortQuery

open Json (Fields Form)

def Leaf.numbers : Leaf → List Nat
  | event c => [c.count, c.windowDays]
  | person _ | member _ => []
  | firstTime c => [c.windowDays]
  | regular c => [c.totalPeriods, c.minPeriods, c.windowDays]

/-- The numbers have 32 bits, and no operand is `null`, which is written for none. -/
structure Leaf.Encodable (l : Leaf) : Prop where
  numbers : ∀ n ∈ l.numbers, n < UInt32.size
  operands : some .null ∉ l.operands

structure Definition.Encodable (d : Definition) : Prop extends d.Bounded where
  encodable : ∀ l ∈ d.root.leaves, l.Encodable

theorem operand_encoded {o : Option Json} (h : o ≠ some .null) :
    Form.operand (encodeOperand o) o := by
  cases o with
  | none => exact .inl ⟨rfl, rfl⟩
  | some v =>
    have hv : v ≠ .null := fun he => h (congrArg some he)
    exact .inr ⟨hv, rfl⟩

theorem filter_encoded {f : EventFilter} (h : f.operand ≠ some .null) :
    EventFilter.Written f.encode f :=
  .object ⟨_, by simp, rfl⟩ (.inl ⟨_, by simp, .inl rfl⟩) (.inl ⟨_, by simp, operand_encoded h⟩)

theorem filters_encoded {fs : List EventFilter} (h : some .null ∉ fs.map EventFilter.operand) :
    Form.list EventFilter.Written (encodeFilters fs) fs := by
  refine ⟨_, rfl, List.forall₂_map_left_iff.mpr (List.forall₂_same.mpr fun f hf => ?_)⟩
  apply filter_encoded
  intro hn
  exact h (hn ▸ List.mem_map_of_mem hf)

theorem leaf_encoded {l : Leaf} (h : l.Encodable) :
    l.Written (("kind", .text l.kind) :: l.fields) := by
  obtain ⟨hn, ho⟩ := h
  cases l with
  | event c =>
    obtain ⟨hc, hw⟩ : c.count < UInt32.size ∧ c.windowDays < UInt32.size := by
      simpa [Leaf.numbers] using hn
    exact ⟨⟨_, by simp [Leaf.fields], rfl⟩, ⟨_, by simp [Leaf.fields], .inl rfl⟩,
      ⟨_, by simp [Leaf.fields], rfl, hc⟩, ⟨_, by simp [Leaf.fields], rfl, hw⟩,
      .inl ⟨_, by simp [Leaf.fields], filters_encoded ho⟩⟩
  | person c =>
    have ho : c.operand ≠ some .null := by simpa [Leaf.operands, eq_comm] using ho
    exact ⟨⟨_, by simp [Leaf.fields], rfl⟩, ⟨_, by simp [Leaf.fields], .inl rfl⟩,
      .inl ⟨_, by simp [Leaf.fields], operand_encoded ho⟩⟩
  | firstTime c =>
    have hw : c.windowDays < UInt32.size := by simpa [Leaf.numbers] using hn
    exact ⟨⟨_, by simp [Leaf.fields], rfl⟩, ⟨_, by simp [Leaf.fields], rfl, hw⟩⟩
  | regular c =>
    obtain ⟨ht, hl, hw⟩ : c.totalPeriods < UInt32.size ∧ c.minPeriods < UInt32.size ∧
        c.windowDays < UInt32.size := by
      simpa [Leaf.numbers] using hn
    exact ⟨⟨_, by simp [Leaf.fields], rfl⟩, ⟨_, by simp [Leaf.fields], .inl rfl⟩,
      ⟨_, by simp [Leaf.fields], rfl, ht⟩, ⟨_, by simp [Leaf.fields], rfl, hl⟩,
      ⟨_, by simp [Leaf.fields], rfl, hw⟩, .inl ⟨_, by simp [Leaf.fields], filters_encoded ho⟩⟩
  | member c =>
    exact ⟨⟨_, by simp [Leaf.fields], rfl⟩, .inl ⟨_, by simp [Leaf.fields], rfl⟩⟩

theorem encode_all (ms : List Condition) : Tree.encodeAll ms = ms.map Tree.encode := by
  induction ms with
  | nil => rfl
  | cons m ms ih => rw [Tree.encodeAll, ih, List.map_cons]

theorem tree_encoded (c : Condition) (h : ∀ l ∈ c.leaves, l.Encodable) :
    Tree.Written c.encode c := by
  induction c using Tree.induct with
  | leaf l => exact .leaf List.mem_cons_self (leaf_encoded (h l (List.mem_singleton.mpr rfl)))
  | group j ms ih =>
    have hj : j.name ∈ j.words := by cases j <;> decide
    rw [Tree.leaves_group] at h
    rw [Tree.encode, encode_all]
    refine .group List.mem_cons_self hj (.list (List.mem_cons_of_mem _ List.mem_cons_self)) ?_
    refine List.forall₂_map_left_iff.mpr (List.forall₂_same.mpr fun m hm => ih m hm ?_)
    exact fun l hl => h l (List.mem_flatMap.mpr ⟨m, hm, hl⟩)

theorem filters_distinct (fs : List EventFilter) : (encodeFilters fs).Distinct := by
  refine .list (List.forall_mem_map.mpr fun f _ => .object (by simp) ?_)
  simp [Json.Distinct.text]

theorem leaf_distinct (l : Leaf) : (Json.object (("kind", .text l.kind) :: l.fields)).Distinct := by
  cases l <;>
    simp [Leaf.fields, Json.int, Json.distinct_object, Json.Distinct.text, Json.Distinct.number,
      Json.Distinct.bool, filters_distinct]

theorem encode_distinct (c : Condition) : c.encode.Distinct := by
  induction c using Tree.induct with
  | leaf l => exact leaf_distinct l
  | group j ms ih =>
    have hm : (Json.list (ms.map Tree.encode)).Distinct := .list (List.forall_mem_map.mpr ih)
    rw [Tree.encode, encode_all]
    refine .object (by simp) ?_
    simp [Json.Distinct.text, hm]

theorem encoding_read {d : Definition} (h : d.Encodable) : Definition.ofJson d.encode = .ok d :=
  (definition_read (encode_distinct d.root) d).mpr ⟨tree_encoded d.root h.encodable, h.toBounded⟩

/-- A definition is read from its encoding, and no other has the same. -/
theorem encoding_faithful (d : Definition) (h : d.Encodable) :
    Definition.ofJson d.encode = .ok d ∧
      ∀ e : Definition, e.Encodable → e.encode = d.encode → e = d := by
  refine ⟨encoding_read h, fun e he hs => ?_⟩
  have hd : Definition.ofJson e.encode = .ok d := hs ▸ encoding_read h
  exact Except.ok.inj ((encoding_read he).symm.trans hd)

def surveyDefinition : Definition :=
  ⟨.or,
    [.leaf (.event ⟨"purchase", .below, 3, 30,
        [⟨"plan", .equals true, some (.text "free")⟩, ⟨"coupon", .isSet true, none⟩]⟩),
      .group .and
        [.leaf (.person ⟨"tags", .contains false, some (.object [("any", .list [.null])])⟩),
          .leaf (.firstTime ⟨"signup", 7⟩), .group .or []],
      .leaf (.regular ⟨"login", .week, 8, 4, 4294967295, []⟩),
      .leaf (.member ⟨"6f1c", true⟩)]⟩

theorem survey_bounded : surveyDefinition.Bounded := by
  have nobody : (Tree.group .or ([] : List Condition)).Narrow 50 :=
    (Tree.narrow_group 50 _ _).mpr ⟨by decide, by simp⟩
  have inner (l m : Leaf) : (Tree.group .and [.leaf l, .leaf m, .group .or []]).Narrow 50 :=
    (Tree.narrow_group 50 _ _).mpr ⟨by simp, by simpa using ⟨trivial, trivial, nobody⟩⟩
  refine ⟨by decide, (Tree.narrow_group 50 _ _).mpr ⟨by decide, ?_⟩, by decide⟩
  simpa [surveyDefinition] using ⟨trivial, inner _ _, trivial, trivial⟩

theorem survey_encodable : surveyDefinition.Encodable := by
  refine ⟨survey_bounded, ?_⟩
  change ∀ l ∈ [Leaf.event _, .person _, .firstTime _, .regular _, .member _], _
  rw [List.forall_mem_cons, List.forall_mem_cons, List.forall_mem_cons, List.forall_mem_cons,
    List.forall_mem_singleton]
  refine ⟨⟨?_, ?_⟩, ⟨?_, ?_⟩, ⟨?_, ?_⟩, ⟨?_, ?_⟩, ⟨?_, ?_⟩⟩
  all_goals simp [Leaf.numbers, Leaf.operands, UInt32.size]

theorem survey_faithful : surveyDefinition.Encodable ∧
    Definition.ofJson surveyDefinition.encode = .ok surveyDefinition :=
  ⟨survey_encodable, (encoding_faithful surveyDefinition survey_encodable).1⟩

end CohortQuery
