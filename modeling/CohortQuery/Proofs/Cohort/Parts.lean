import CohortQuery.Proofs.Cohort.Reason
import CohortQuery.Proofs.Cohort.Tree

/-!
# The first bad part

A part of a tree has an address: the numbers of the members on the way to it. It stands inside as
many groups as its address has numbers, and it comes before another part, depth first and every
group before its members, just if its address is the smaller one. A tree is refused for its first
bad part: a group inside too many others, or a leaf that is refused when it stands alone.
-/

set_option autoImplicit false

namespace CohortQuery

def Tree.part? {α : Type} : Tree α → List Nat → Option (Tree α)
  | t, [] => some t
  | .leaf _, _ :: _ => none
  | .group _ ms, i :: path => ms[i]?.bind fun m => m.part? path

section

variable (allowed : AllowList) (alone : Bindings)

/-- The part at the address is refused, where no group may stand inside `room` others: it is such
a group, or a leaf that is refused from the bindings `alone`. -/
inductive Fault (room : Nat) (t : Condition) : List Nat → CompileError → Prop where
  | group {path : List Nat} {j : Junction} {ms : List Condition}
      (hp : t.part? path = some (.group j ms)) (hd : room ≤ path.length) :
      Fault room t path .tooDeep
  | leaf {path : List Nat} {l : Leaf} {e : CompileError} (hp : t.part? path = some (.leaf l))
      (hl : ((l.compile allowed).outcome alone).1 = .error e) : Fault room t path e

/-- No part before the one at the address is refused. -/
def FirstFault (room : Nat) (t : Condition) (path : List Nat) (e : CompileError) : Prop :=
  Fault allowed alone room t path e ∧
    ∀ other < path, ∀ d, ¬ Fault allowed alone room t other d

end

section

variable {allowed : AllowList} {alone : Bindings}

theorem fault_leaf (room : Nat) (l : Leaf) (path : List Nat) (e : CompileError) :
    Fault allowed alone room (.leaf l) path e ↔ path = [] ∧ l.reason? allowed = some e := by
  have hl := leaf_refuses allowed l alone
  constructor
  · intro h
    cases h with
    | group hp _ => cases path <;> simp [Tree.part?] at hp
    | leaf hp he =>
      cases path with
      | nil =>
        cases hp
        exact ⟨rfl, by rw [← hl, he]; rfl⟩
      | cons i path => cases hp
  · rintro ⟨rfl, he⟩
    exact .leaf rfl ((Except.reason_some _ _).mp (hl.trans he))

theorem fault_root (j : Junction) (ms : List Condition) (e : CompileError) :
    Fault allowed alone 0 (.group j ms) [] e ↔ e = .tooDeep := by
  constructor
  · intro h
    cases h with
    | group => rfl
    | leaf hp => cases hp
  · rintro rfl
    exact .group rfl (Nat.zero_le _)

theorem fault_member (room : Nat) (j : Junction) (ms : List Condition) (path : List Nat)
    (e : CompileError) : Fault allowed alone (room + 1) (.group j ms) path e ↔
      ∃ i m rest, path = i :: rest ∧ ms[i]? = some m ∧ Fault allowed alone room m rest e := by
  constructor
  · intro h
    cases path with
    | nil =>
      cases h with
      | group _ hd => cases hd
      | leaf hp => cases hp
    | cons i rest =>
      cases h with
      | group hp hd =>
        obtain ⟨m, hm, hp⟩ := Option.bind_eq_some_iff.mp hp
        exact ⟨i, m, rest, rfl, hm, .group hp (Nat.le_of_succ_le_succ hd)⟩
      | leaf hp hl =>
        obtain ⟨m, hm, hp⟩ := Option.bind_eq_some_iff.mp hp
        exact ⟨i, m, rest, rfl, hm, .leaf hp hl⟩
  · rintro ⟨i, m, rest, rfl, hm, h⟩
    have part (q : Condition) (hq : m.part? rest = some q) :
        (Tree.group j ms).part? (i :: rest) = some q := by
      rw [Tree.part?, hm]
      exact hq
    cases h with
    | group hp hd => exact .group (part _ hp) (Nat.succ_le_succ hd)
    | leaf hp hl => exact .leaf (part _ hp) hl

theorem first_member (room : Nat) (j : Junction) (ms : List Condition) (i : Nat)
    (rest : List Nat) (e : CompileError) :
    FirstFault allowed alone (room + 1) (.group j ms) (i :: rest) e ↔
      ∃ m, ms[i]? = some m ∧ FirstFault allowed alone room m rest e ∧
        ∀ k < i, ∀ n, ms[k]? = some n → ∀ path d, ¬ Fault allowed alone room n path d := by
  have hmember := @fault_member allowed alone room j ms
  constructor
  · rintro ⟨hf, hfirst⟩
    obtain ⟨_, m, _, hp, hm, hf⟩ := (hmember _ e).mp hf
    obtain ⟨rfl, rfl⟩ := List.cons.inj hp
    refine ⟨m, hm, ⟨hf, fun other ho d hd => ?_⟩, fun k hk n hn path d hd => ?_⟩
    · apply hfirst (i :: other) (List.cons_lt_cons_iff.mpr (.inr ⟨rfl, ho⟩)) d
      exact (hmember _ d).mpr ⟨i, m, other, rfl, hm, hd⟩
    · apply hfirst (k :: path) (List.cons_lt_cons_iff.mpr (.inl hk)) d
      exact (hmember _ d).mpr ⟨k, n, path, rfl, hn, hd⟩
  · rintro ⟨m, hm, ⟨hf, hfirst⟩, hfree⟩
    refine ⟨(hmember _ e).mpr ⟨i, m, rest, rfl, hm, hf⟩, fun other ho d hd => ?_⟩
    obtain ⟨k, n, path, rfl, hn, hd⟩ := (hmember _ d).mp hd
    rcases List.cons_lt_cons_iff.mp ho with hk | ⟨rfl, hp⟩
    · exact hfree k hk n hn path d hd
    · obtain rfl : m = n := Option.some.inj (hm.symm.trans hn)
      exact hfirst path hp d hd

end

theorem members_reason (allowed : AllowList) (room : Nat) (ms : List Condition) :
    membersReason? allowed room ms = ms.findSome? (nodeReason? allowed room) := by
  induction ms with
  | nil => rfl
  | cons m ms ih =>
    rw [membersReason?, List.findSome?_cons, ih]
    cases nodeReason? allowed room m <;> rfl

section

variable (allowed : AllowList) (alone : Bindings)

theorem node_free (t : Condition) (room : Nat) : nodeReason? allowed room t = none ↔
    ∀ path e, ¬ Fault allowed alone room t path e := by
  induction t using Tree.induct generalizing room with
  | leaf l =>
    rw [nodeReason?, Option.eq_none_iff_forall_ne_some]
    simp only [fault_leaf, not_and]
    exact ⟨fun h _ e _ => h e, fun h e => h [] e rfl⟩
  | group j ms ih =>
    cases room with
    | zero =>
      rw [nodeReason?]
      apply iff_of_false (by simp)
      intro h
      exact h [] _ ((fault_root j ms _).mpr rfl)
    | succ room =>
      rw [nodeReason?, members_reason, List.findSome?_eq_none_iff]
      constructor
      · intro h path e hf
        obtain ⟨i, m, rest, rfl, hm, hf⟩ := (fault_member room j ms path e).mp hf
        have hi := List.mem_of_getElem? hm
        exact (ih m hi room).mp (h m hi) rest e hf
      · intro h m hm
        apply (ih m hm room).mpr
        intro path e hf
        obtain ⟨i, hi⟩ := List.mem_iff_getElem?.mp hm
        exact h (i :: path) e ((fault_member room j ms _ e).mpr ⟨i, m, path, rfl, hi, hf⟩)

/-- The reason to refuse a tree is that of its first part that is refused. -/
theorem node_first (t : Condition) (room : Nat) (e : CompileError) :
    nodeReason? allowed room t = some e ↔ ∃ path, FirstFault allowed alone room t path e := by
  induction t using Tree.induct generalizing room with
  | leaf l =>
    rw [nodeReason?]
    constructor
    · intro h
      refine ⟨[], (fault_leaf room l [] e).mpr ⟨rfl, h⟩, fun other ho => ?_⟩
      exact absurd ho (List.not_lt_nil other)
    · rintro ⟨path, hf, _⟩
      exact ((fault_leaf room l path e).mp hf).2
  | group j ms ih =>
    cases room with
    | zero =>
      have hroot := (@fault_root allowed alone j ms .tooDeep).mpr rfl
      rw [nodeReason?, Option.some.injEq]
      constructor
      · rintro rfl
        exact ⟨[], hroot, fun other ho => absurd ho (List.not_lt_nil other)⟩
      · rintro ⟨path, hf, hfirst⟩
        cases path with
        | nil => exact ((fault_root j ms e).mp hf).symm
        | cons i rest => exact absurd hroot (hfirst [] (List.nil_lt_cons i rest) _)
    | succ room =>
      rw [nodeReason?, members_reason, List.findSome?_eq_some_iff]
      constructor
      · rintro ⟨before, m, behind, rfl, hm, hfree⟩
        obtain ⟨rest, hf⟩ := (ih m (by simp) room).mp hm
        refine ⟨before.length :: rest, (first_member room j _ _ rest e).mpr
          ⟨m, by simp, hf, fun k hk n hn => ?_⟩⟩
        rw [List.getElem?_append_left hk] at hn
        exact (node_free allowed alone n room).mp (hfree n (List.mem_of_getElem? hn))
      · rintro ⟨path, hf⟩
        obtain ⟨i, _, rest, rfl, _⟩ := (fault_member room j ms path e).mp hf.1
        obtain ⟨m, hm, hf, hfree⟩ := (first_member room j ms i rest e).mp hf
        obtain ⟨hi, rfl⟩ := List.getElem?_eq_some_iff.mp hm
        refine ⟨ms.take i, ms[i], ms.drop (i + 1), by simp,
          (ih _ (List.getElem_mem hi) room).mpr ⟨rest, hf⟩, fun n hn => ?_⟩
        obtain ⟨k, hk⟩ := List.mem_iff_getElem?.mp hn
        rw [List.getElem?_take, Option.ite_none_right_eq_some] at hk
        exact (node_free allowed alone n room).mpr (hfree k hk.1 n hk.2)

/-- A tree is compiled just if no group in it stands inside ten others and every leaf of it is
compiled when it stands alone. Otherwise its first part that is refused decides why, whatever was
bound before. -/
theorem first_fault_decides (t : Condition) (b : Bindings) :
    ((∃ p c, (t.compile allowed).Yields b p c) ↔
      (∀ path j ms, t.part? path = some (.group j ms) → path.length < 10) ∧
        ∀ path l, t.part? path = some (.leaf l) →
          ∃ f c, (l.compile allowed).Yields alone f c) ∧
    ∀ e, ((t.compile allowed).outcome b).1 = .error e ↔
      ∃ path, FirstFault allowed alone 10 t path e := by
  have hr := node_refuses allowed Limits.depth t b
  constructor
  · rw [Binder.yields_some, Tree.compile, hr, node_free allowed alone]
    constructor
    · intro h
      refine ⟨fun path j ms hp => ?_, fun path l hp => (Binder.yields_some _ _).mpr ?_⟩
      · by_contra hd
        exact h path _ (.group hp (Nat.le_of_not_lt hd))
      · apply Option.eq_none_iff_forall_ne_some.mpr
        intro e he
        exact h path e (.leaf hp ((Except.reason_some _ _).mp he))
    · rintro ⟨hg, hl⟩ path e hf
      cases hf with
      | group hp hd => exact Nat.not_lt_of_le hd (hg path _ _ hp)
      | leaf hp he =>
        have hn := (Binder.yields_some _ _).mp (hl path _ hp)
        rw [(Except.reason_some _ _).mpr he] at hn
        cases hn
  · intro e
    rw [← Except.reason_some, Tree.compile, hr]
    exact node_first allowed alone t 10 e

end

def Tree.wrapped {α : Type} : Nat → Tree α → Tree α
  | 0, t => t
  | n + 1, t => .group .or [t.wrapped n]

example (b : Bindings) : ((Tree.compile .empty (.group .or
    [.leaf (.member ⟨"vip", true⟩), .wrapped 10 (.group .and []),
      .leaf (.member ⟨"", false⟩)])).outcome b).1 = .error .tooDeep := by
  rfl

end CohortQuery
