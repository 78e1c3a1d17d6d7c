import CohortQuery.Proofs.Cohort.Encoding
import CohortQuery.Proofs.Cohort.Parts
import CohortQuery.Proofs.Cohort.Refusal

/-!
# One bound on depth

Groups are counted twice, when a definition is read and when it is compiled, and both times a tree
is refused for its depth just if it is higher than the room there is. What is read is therefore
never too deep to compile, and a tree whose leaves are sound is too deep for both or for none.
-/

set_option autoImplicit false

namespace CohortQuery

section

variable (allowed : AllowList)

theorem leaf_reason_shallow (l : Leaf) : l.reason? allowed ≠ some .tooDeep := by
  rw [← leaf_refuses allowed l ⟨[], 0, none⟩, Ne, Except.reason_some]
  exact leaf_not_deep allowed l _

theorem shallow_reason (t : Condition) (room : Nat) (h : t.height ≤ room) :
    nodeReason? allowed room t ≠ some .tooDeep := by
  induction t using Tree.induct generalizing room with
  | leaf l =>
    rw [nodeReason?]
    exact leaf_reason_shallow allowed l
  | group j ms ih =>
    obtain ⟨k, rfl, hm⟩ := (Tree.height_group j ms room).mp h
    rw [nodeReason?, members_reason]
    intro hr
    obtain ⟨m, hi, hr⟩ := List.exists_of_findSome?_eq_some hr
    exact ih m hi k (hm m hi) hr

theorem sound_reason (t : Condition) (room : Nat) (h : ∀ l ∈ t.leaves, l.reason? allowed = none) :
    nodeReason? allowed room t = none ↔ t.height ≤ room := by
  induction t using Tree.induct generalizing room with
  | leaf l =>
    rw [nodeReason?]
    exact iff_of_true (h l (List.mem_singleton.mpr rfl)) (Nat.zero_le room)
  | group j ms ih =>
    rw [Tree.leaves_group] at h
    rw [Tree.height_group]
    cases room with
    | zero =>
      rw [nodeReason?]
      apply iff_of_false (by simp)
      rintro ⟨k, hk, _⟩
      cases hk
    | succ room =>
      have hm (m : Condition) (hi : m ∈ ms) :
          nodeReason? allowed room m = none ↔ m.height ≤ room :=
        ih m hi room fun l hl => h l (List.mem_flatMap.mpr ⟨m, hi, hl⟩)
      rw [nodeReason?, members_reason, List.findSome?_eq_none_iff]
      constructor
      · intro hr
        exact ⟨room, rfl, fun m hi => (hm m hi).mp (hr m hi)⟩
      · rintro ⟨k, hk, hr⟩ m hi
        obtain rfl := Nat.succ.inj hk
        exact (hm m hi).mpr (hr m hi)

theorem sound_deep (t : Condition) (room : Nat) (e : CompileError)
    (h : ∀ l ∈ t.leaves, l.reason? allowed = none)
    (he : nodeReason? allowed room t = some e) : e = .tooDeep := by
  induction t using Tree.induct generalizing room with
  | leaf l =>
    rw [nodeReason?, h l (List.mem_singleton.mpr rfl)] at he
    cases he
  | group j ms ih =>
    rw [Tree.leaves_group] at h
    cases room with
    | zero =>
      rw [nodeReason?] at he
      exact (Option.some.inj he).symm
    | succ room =>
      rw [nodeReason?, members_reason] at he
      obtain ⟨m, hi, hm⟩ := List.exists_of_findSome?_eq_some he
      exact ih m hi room (fun l hl => h l (List.mem_flatMap.mpr ⟨m, hi, hl⟩)) hm

end

open DefinitionReader (Reads reads_bind reads_pure)

theorem reads_each {α : Type} {f : Json → DefinitionReader α} (vs : List Json) (n : Nat)
    (as : List α) (m : Nat) (h : (vs.mapM f).Reads n as m) :
    ∀ a ∈ as, ∃ v k l, (f v).Reads k a l := by
  induction vs generalizing n as with
  | nil =>
    rw [List.mapM_nil, reads_pure] at h
    simp [h.1]
  | cons v vs ih =>
    rw [List.mapM_cons] at h
    simp only [reads_bind, reads_pure] at h
    obtain ⟨b, k, hb, bs, l, hs, rfl, rfl⟩ := h
    exact List.forall_mem_cons.mpr ⟨⟨v, n, k, hb⟩, ih k bs hs⟩

theorem read_shallow (room : Nat) (v : Json) (n : Nat) (c : Condition) (m : Nat)
    (h : (readNode room v).Reads n c m) : c.height ≤ room := by
  induction room generalizing v n c m with
  | zero =>
    obtain ⟨_, _, _, ⟨_, _, l, _, rfl⟩ | ⟨_, _, k, hk, _⟩⟩ := (node_step 0 v n c m).mp h
    · exact Nat.zero_le 0
    · cases hk
  | succ room ih =>
    obtain ⟨_, _, _, ⟨_, _, l, _, rfl⟩ | ⟨j, _, k, hk, vs, _, ms, hr, rfl⟩⟩ :=
      (node_step (room + 1) v n c m).mp h
    · exact Nat.zero_le (room + 1)
    · obtain rfl := Nat.succ.inj hk
      apply (Tree.height_group j ms _).mpr
      refine ⟨room, rfl, fun a ha => ?_⟩
      obtain ⟨w, i, l, hw⟩ := reads_each vs n ms m hr a ha
      exact ih w i a l hw

theorem definition_shallow {v : Json} {d : Definition} (h : Definition.ofJson v = .ok d) :
    d.root.height ≤ 10 := by
  rw [Definition.ofJson, Binder.except_bind] at h
  obtain ⟨⟨c, m⟩, hc, h⟩ := h
  cases c with
  | leaf l => cases h
  | group j ms =>
    obtain rfl := Except.ok.inj h
    exact read_shallow 10 v 0 _ m hc

/-- Nothing but its height stands in the way of reading the encoding of the tree behind `n`
leaves. -/
structure Tree.Readable (n : Nat) (t : Condition) : Prop where
  width : t.Narrow 50
  leaves : n + t.leaves.length ≤ 200
  encodable : ∀ l ∈ t.leaves, l.Encodable

theorem readable_cons {n : Nat} {j : Junction} {m : Condition} {ms : List Condition}
    (h : (Tree.group j (m :: ms)).Readable n) :
    m.Readable n ∧ (Tree.group j ms).Readable (n + m.leaves.length) := by
  obtain ⟨hw, hn, he⟩ := h
  obtain ⟨hl, hw⟩ := (Tree.narrow_group 50 j _).mp hw
  obtain ⟨hm, hw⟩ := List.forall_mem_cons.mp hw
  rw [List.length_cons] at hl
  rw [Tree.leaves_group, List.flatMap_cons] at hn he
  rw [List.length_append] at hn
  obtain ⟨hem, he⟩ := List.forall_mem_append.mp he
  constructor
  · exact ⟨hm, by omega, hem⟩
  · refine ⟨(Tree.narrow_group 50 j ms).mpr ⟨by omega, hw⟩, ?_, ?_⟩
    · rw [Tree.leaves_group]
      omega
    · rwa [Tree.leaves_group]

theorem encoded_reads {t : Condition} {n room : Nat} (h : t.Readable n) (hr : t.height ≤ room) :
    (readNode room t.encode).run n = .ok (t, n + t.leaves.length) := by
  have hn : n ≤ 200 := Nat.le_trans (Nat.le_add_right _ _) h.leaves
  apply (node_reads room t.encode (encode_distinct t) n hn t _).mpr
  exact ⟨⟨tree_encoded t h.encodable, hr, h.width⟩, rfl, h.leaves⟩

theorem junction_name (j : Junction) : Junction.ofName? j.name = some j := by
  cases j <;> rfl

theorem group_header (j : Junction) (ms : List Condition) :
    headerOf (Tree.group j ms).encode =
      .ok (j.name, [("kind", .text j.name), ("members", .list (ms.map Tree.encode))]) := by
  rw [Tree.encode, encode_all]
  rfl

theorem group_without_room (j : Junction) (ms : List Condition) :
    readNode 0 (Tree.group j ms).encode = throw .tooDeep := by
  rw [readNode, group_header, DefinitionReader.lift_ok]
  dsimp only
  rw [junction_name]

theorem group_with_room (room : Nat) (j : Junction) (ms : List Condition) (h : ms.length ≤ 50) :
    readNode (room + 1) (Tree.group j ms).encode =
      do return .group j (← (ms.map Tree.encode).mapM (readNode room)) := by
  have members : membersOf [("kind", .text j.name), ("members", .list (ms.map Tree.encode))] =
      .ok (ms.map Tree.encode) := by
    have hl : (ms.map Tree.encode).length ≤ Limits.membersPerGroup := by rwa [List.length_map]
    exact if_pos hl
  rw [readNode, group_header, DefinitionReader.lift_ok]
  dsimp only
  rw [junction_name]
  dsimp only
  rw [members, DefinitionReader.lift_ok]

theorem members_deep (room n : Nat) (j : Junction) (ms : List Condition)
    (hr : (Tree.group j ms).Readable n) (h : ∃ m ∈ ms, room < m.height)
    (hd : ∀ m ∈ ms, ∀ k, m.Readable k → room < m.height →
      (readNode room m.encode).run k = .error .tooDeep) :
    ((ms.map Tree.encode).mapM (readNode room)).run n = .error .tooDeep := by
  induction ms generalizing n with
  | nil =>
    obtain ⟨m, hm, _⟩ := h
    cases hm
  | cons m ms ih =>
    obtain ⟨hm, hr⟩ := readable_cons hr
    obtain ⟨hdm, hd⟩ := List.forall_mem_cons.mp hd
    rw [List.map_cons, List.mapM_cons, StateT.run_bind]
    by_cases hh : m.height ≤ room
    · have hs : ∃ m ∈ ms, room < m.height := by
        obtain ⟨c, hc, hl⟩ := h
        rcases List.mem_cons.mp hc with rfl | hc
        · exact absurd hl (Nat.not_lt_of_le hh)
        · exact ⟨c, hc, hl⟩
      rw [encoded_reads hm hh]
      change ((ms.map Tree.encode).mapM (readNode room) >>= fun cs => pure (m :: cs) :
        DefinitionReader (List Condition)).run (n + m.leaves.length) = _
      rw [StateT.run_bind, ih _ hr hs hd]
      rfl
    · rw [hdm n hm (Nat.lt_of_not_le hh)]
      rfl

theorem encoded_deep (t : Condition) (room n : Nat) (h : t.Readable n) (hd : room < t.height) :
    (readNode room t.encode).run n = .error .tooDeep := by
  induction t using Tree.induct generalizing room n with
  | leaf l => exact absurd hd (Nat.not_lt_zero room)
  | group j ms ih =>
    cases room with
    | zero =>
      rw [group_without_room]
      rfl
    | succ room =>
      have hm : ∃ m ∈ ms, room < m.height := by
        by_contra hn
        apply Nat.not_le_of_lt hd
        apply (Tree.height_group j ms _).mpr
        exact ⟨room, rfl, fun m hi => Nat.le_of_not_lt fun hl => hn ⟨m, hi, hl⟩⟩
      rw [group_with_room room j ms ((Tree.narrow_group 50 j ms).mp h.width).1, StateT.run_bind,
        members_deep room n j ms h hm fun m hi k => ih m hi room k]
      rfl

/-- What is read is never too deep to compile. A definition whose leaves are compiled when they
stand alone, but which need not have been read, is too deep to compile just if its encoding is too
deep to read; if it is not too deep, it is compiled and its encoding is read. -/
theorem depth_agrees :
    (∀ (v : Json) (d : Definition), Definition.ofJson v = .ok d →
      ∀ (allowed : AllowList) (b : Bindings), ((d.compile allowed).outcome b).1 ≠ .error .tooDeep) ∧
    ∀ (d : Definition) (allowed : AllowList) (alone b : Bindings), d.root.Narrow 50 →
      d.root.leaves.length ≤ 200 → (∀ l ∈ d.root.leaves, l.Encodable) →
      (∀ l ∈ d.root.leaves, ∃ f c, (l.compile allowed).Yields alone f c) →
        (((d.compile allowed).outcome b).1 = .error .tooDeep ↔
          Definition.ofJson d.encode = .error .tooDeep) ∧
        (((d.compile allowed).outcome b).1 ≠ .error .tooDeep →
          (∃ p c, (d.compile allowed).Yields b p c) ∧ Definition.ofJson d.encode = .ok d) := by
  have compiled (d : Definition) (allowed : AllowList) (b : Bindings) :
      Except.reason? ((d.compile allowed).outcome b).1 = nodeReason? allowed 10 d.root :=
    node_refuses allowed Limits.depth d.root b
  constructor
  · intro v d hv allowed b
    rw [Ne, ← Except.reason_some, compiled]
    exact shallow_reason allowed d.root 10 (definition_shallow hv)
  · intro d allowed alone b hw hl he hs
    have hr : ∀ l ∈ d.root.leaves, l.reason? allowed = none := by
      intro l hi
      rw [← leaf_refuses allowed l alone]
      exact (Binder.yields_some _ _).mp (hs l hi)
    rw [Ne, ← Except.reason_some, Binder.yields_some, compiled]
    by_cases hd : d.root.height ≤ 10
    · have hn := (sound_reason allowed d.root 10 hr).mpr hd
      have ho : Definition.ofJson d.encode = .ok d := encoding_read ⟨⟨hd, hw, hl⟩, he⟩
      rw [hn, ho]
      exact ⟨iff_of_false (by simp) (by simp), fun _ => ⟨rfl, rfl⟩⟩
    · have hn : nodeReason? allowed 10 d.root = some .tooDeep := by
        cases hn : nodeReason? allowed 10 d.root with
        | none => exact absurd ((sound_reason allowed d.root 10 hr).mp hn) hd
        | some e => rw [sound_deep allowed d.root 10 e hr hn]
      have ho : Definition.ofJson d.encode = .error .tooDeep := by
        have hf := encoded_deep d.root 10 0 ⟨hw, by omega, he⟩ (Nat.lt_of_not_le hd)
        rw [Definition.ofJson, Definition.encode]
        change (readNode 10 d.root.encode).run 0 >>= _ = _
        rw [hf]
        rfl
      rw [hn]
      exact ⟨iff_of_true rfl ho, fun h => absurd rfl h⟩

def nestedMember (groups : Nat) : Definition :=
  ⟨.and, [.wrapped groups (.leaf (.member ⟨"vip", false⟩)), .group .or []]⟩

theorem wrapped_leaves {α : Type} (n : Nat) (t : Tree α) : (t.wrapped n).leaves = t.leaves := by
  induction n with
  | zero => rfl
  | succ n ih => rw [Tree.wrapped, Tree.leaves_group, List.flatMap_singleton, ih]

theorem wrapped_narrow {α : Type} (n : Nat) (t : Tree α) (h : t.Narrow 50) :
    (t.wrapped n).Narrow 50 := by
  induction n with
  | zero => exact h
  | succ n ih =>
    apply (Tree.narrow_group 50 _ _).mpr
    exact ⟨by simp, List.forall_mem_singleton.mpr ih⟩

theorem nested_leaves (groups : Nat) :
    (nestedMember groups).root.leaves = [.member ⟨"vip", false⟩] := by
  rw [Definition.root, nestedMember, Tree.leaves_group, List.flatMap_cons, wrapped_leaves]
  rfl

theorem nested_narrow (groups : Nat) : (nestedMember groups).root.Narrow 50 := by
  have hn : (Tree.group .or ([] : List Condition)).Narrow 50 :=
    (Tree.narrow_group 50 _ _).mpr ⟨by simp, by simp⟩
  apply (Tree.narrow_group 50 _ _).mpr
  refine ⟨by simp [nestedMember], List.forall_mem_cons.mpr ⟨?_, List.forall_mem_singleton.mpr hn⟩⟩
  exact wrapped_narrow groups _ trivial

theorem nested_encodable (groups : Nat) :
    ∀ l ∈ (nestedMember groups).root.leaves, l.Encodable := by
  rw [nested_leaves, List.forall_mem_singleton]
  constructor <;> simp [Leaf.numbers, Leaf.operands]

/-- Nine groups besides the root are read and compiled, ten are too deep for both. -/
theorem nested_agrees :
    (∀ n, (nestedMember n).root.Narrow 50 ∧ (nestedMember n).root.leaves.length ≤ 200 ∧
      (∀ l ∈ (nestedMember n).root.leaves, l.Encodable) ∧
      ∀ l ∈ (nestedMember n).root.leaves,
        ∃ f c, (l.compile .empty).Yields ⟨[], 0, none⟩ f c) ∧
    Definition.ofJson (nestedMember 9).encode = .ok (nestedMember 9) ∧
    (((nestedMember 9).compile .empty).outcome ⟨[], 0, none⟩).1 ≠ .error .tooDeep ∧
    Definition.ofJson (nestedMember 10).encode = .error .tooDeep ∧
    (((nestedMember 10).compile .empty).outcome ⟨[], 0, none⟩).1 = .error .tooDeep := by
  have hl (n : Nat) : (nestedMember n).root.leaves.length ≤ 200 := by
    rw [nested_leaves]
    simp
  have hs (n : Nat) : ∀ l ∈ (nestedMember n).root.leaves,
      ∃ f c, (l.compile .empty).Yields ⟨[], 0, none⟩ f c := by
    rw [nested_leaves, List.forall_mem_singleton]
    exact ⟨_, _, rfl⟩
  have agrees (n : Nat) := depth_agrees.2 (nestedMember n) .empty ⟨[], 0, none⟩ ⟨[], 0, none⟩
    (nested_narrow n) (hl n) (nested_encodable n) (hs n)
  have shallow : (((nestedMember 9).compile .empty).outcome ⟨[], 0, none⟩).1 ≠ .error .tooDeep := by
    intro h
    cases h
  have deep : (((nestedMember 10).compile .empty).outcome ⟨[], 0, none⟩).1 = .error .tooDeep := rfl
  have read := ((agrees 9).2 shallow).2
  exact ⟨fun n => ⟨nested_narrow n, hl n, nested_encodable n, hs n⟩, read,
    depth_agrees.1 _ _ read .empty _, (agrees 10).1.mp deep, deep⟩

end CohortQuery
