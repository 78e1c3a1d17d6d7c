import CohortQuery.Proofs.Cohort.Definition
import CohortQuery.Proofs.Cohort.Reason
import Mathlib.Logic.Relation

/-!
# Unknown operators

A definition is refused for the first of its nodes that is refused by itself, and of the operators
of a leaf that are looked at for the first unknown one: that of the leaf, then those of the filters
that are written as objects. An unknown operator of a filter that is written as a list is not looked
at, and is refused together with the leaf.
-/

set_option autoImplicit false

namespace CohortQuery

open Json (Fields Form)

theorem error_bind {ε α β : Type} (x : Except ε α) (f : α → Except ε β) (e : ε) :
    (x >>= f) = .error e ↔ x = .error e ∨ ∃ a, x = .ok a ∧ f a = .error e := by
  cases x <;> simp [bind, Except.bind]

namespace DefinitionReader

variable {α β : Type}

def Fails (x : DefinitionReader α) (n : Nat) (e : CompileError) : Prop :=
  x.run n = .error e

theorem fails_pure (a : α) (n : Nat) (e : CompileError) :
    ¬(pure a : DefinitionReader α).Fails n e := by
  intro h
  cases h

theorem fails_bind (x : DefinitionReader α) (f : α → DefinitionReader β) (n : Nat)
    (e : CompileError) :
    (x >>= f).Fails n e ↔ x.Fails n e ∨ ∃ a k, x.Reads n a k ∧ (f a).Fails k e := by
  unfold Fails Reads
  rw [StateT.run_bind, error_bind, Prod.exists]

theorem fails_lift (r : Except CompileError α) (n : Nat) (e : CompileError) :
    (liftM r : DefinitionReader α).Fails n e ↔ r = .error e := by
  cases r with
  | error d =>
    refine ⟨fun h => ?_, fun h => ?_⟩ <;>
      · cases h
        rfl
  | ok a => exact iff_of_false (fails_pure a n e) (by simp)

theorem fails_throw (d : CompileError) (n : Nat) (e : CompileError) :
    (throw d : DefinitionReader α).Fails n e ↔ e = d := by
  constructor
  · intro h
    cases h
    rfl
  · rintro rfl
    rfl

theorem fails_count (n : Nat) (e : CompileError) :
    countLeaf.Fails n e ↔ 200 ≤ n ∧ e = .invalidDefinition .tooManyLeaves := by
  have h : countLeaf.run n = if n < Limits.leavesPerDefinition then .ok ((), n + 1)
      else flawed .tooManyLeaves := rfl
  have hl : Limits.leavesPerDefinition = 200 := rfl
  unfold Fails
  rw [h, hl]
  split
  next hn => exact iff_of_false (by simp) fun h => Nat.not_le_of_lt hn h.1
  next hn => simpa [flawed, eq_comm] using fun _ => Nat.le_of_not_lt hn

theorem fails_all (f : Json → DefinitionReader α) (vs : List Json) (n : Nat) (e : CompileError) :
    (vs.mapM f).Fails n e ↔ ∃ before v behind as k, vs = before ++ v :: behind ∧
      (before.mapM f).Reads n as k ∧ (f v).Fails k e := by
  induction vs generalizing n with
  | nil =>
    refine iff_of_false (fails_pure _ _ _) ?_
    rintro ⟨before, v, behind, _, _, h, _⟩
    cases before <;> cases h
  | cons w vs ih =>
    rw [List.mapM_cons, fails_bind]
    constructor
    · rintro (h | ⟨a, k, ha, h⟩)
      · exact ⟨[], w, vs, [], n, rfl, rfl, h⟩
      · rw [fails_bind] at h
        obtain h | ⟨bs, l, -, h⟩ := h
        · obtain ⟨before, v, behind, as, l, rfl, hr, hv⟩ := (ih k).mp h
          refine ⟨w :: before, v, behind, a :: as, l, rfl, ?_, hv⟩
          rw [List.mapM_cons]
          simp only [reads_bind, reads_pure]
          exact ⟨a, k, ha, as, l, hr, rfl, rfl⟩
        · cases fails_pure _ _ _ h
    · rintro ⟨before, v, behind, as, k, hs, hr, hv⟩
      cases before with
      | nil =>
        obtain ⟨rfl, rfl⟩ := List.cons.inj hs
        obtain ⟨-, rfl⟩ := (reads_pure _ _ _ _).mp hr
        exact .inl hv
      | cons _ before =>
        obtain ⟨rfl, rfl⟩ := List.cons.inj hs
        rw [List.mapM_cons] at hr
        simp only [reads_bind, reads_pure] at hr
        obtain ⟨a, i, ha, bs, l, hb, -, rfl⟩ := hr
        refine .inr ⟨a, i, ha, (fails_bind _ _ _ _).mpr (.inl ?_)⟩
        exact (ih i).mpr ⟨before, v, behind, bs, k, rfl, hb, hv⟩

end DefinitionReader

open DefinitionReader

/-- A node that is read behind so many leaves, with room for so many groups inside one another. -/
structure Place where
  room : Nat
  value : Json
  leaves : Nat

namespace Place

/-- From a group the reading comes to one of its members when it has read those before. -/
inductive Opens : Place → Place → Prop where
  | member {room n k : Nat} {fields : Fields} {word : String} {j : Junction}
      {before behind : List Json} {v : Json} {ms : List Condition}
      (hk : Json.get? fields "kind" = some (.text word)) (hj : Junction.ofName? word = some j)
      (hm : membersOf fields = .ok (before ++ v :: behind))
      (hr : (before.mapM (readNode room)).Reads n ms k) :
      Opens ⟨room + 1, .object fields, n⟩ ⟨room, v, k⟩

def Comes : Place → Place → Prop :=
  Relation.ReflTransGen Opens

/-- A node is refused by itself. -/
inductive Refused : Place → CompileError → Prop where
  | header {room n : Nat} {v : Json} {e : CompileError} (h : headerOf v = .error e) :
      Refused ⟨room, v, n⟩ e
  | deep {n : Nat} {fields : Fields} {word : String} {j : Junction}
      (hk : Json.get? fields "kind" = some (.text word)) (hj : Junction.ofName? word = some j) :
      Refused ⟨0, .object fields, n⟩ .tooDeep
  | members {room n : Nat} {fields : Fields} {word : String} {j : Junction} {e : CompileError}
      (hk : Json.get? fields "kind" = some (.text word)) (hj : Junction.ofName? word = some j)
      (hm : membersOf fields = .error e) : Refused ⟨room + 1, .object fields, n⟩ e
  | crowded {room n : Nat} {fields : Fields} {kind : String}
      (hk : Json.get? fields "kind" = some (.text kind)) (hj : Junction.ofName? kind = none)
      (hn : 200 ≤ n) : Refused ⟨room, .object fields, n⟩ (.invalidDefinition .tooManyLeaves)
  | leaf {room n : Nat} {fields : Fields} {kind : String} {e : CompileError}
      (hk : Json.get? fields "kind" = some (.text kind)) (hj : Junction.ofName? kind = none)
      (hn : n < 200) (hl : readLeaf kind fields = .error e) : Refused ⟨room, .object fields, n⟩ e

end Place

theorem bad_header {room : Nat} {v : Json} {d : CompileError} (h : headerOf v = .error d) :
    readNode room v = throw d := by
  cases room <;>
    · rw [readNode, h]
      rfl

section

variable {room : Nat} {fields : Fields} {kind : String}
  (hk : Json.get? fields "kind" = some (.text kind))

include hk

theorem leaf_node (hj : Junction.ofName? kind = none) : readNode room (.object fields) =
    do countLeaf; return .leaf (← readLeaf kind fields) := by
  have hh := (header_ok (.object fields) kind fields).mpr ⟨rfl, hk⟩
  cases room <;>
    · rw [readNode, hh, DefinitionReader.lift_ok]
      simp only [hj]

variable {j : Junction} (hj : Junction.ofName? kind = some j)

include hj

theorem group_closed : readNode 0 (.object fields) = throw .tooDeep := by
  have hh := (header_ok (.object fields) kind fields).mpr ⟨rfl, hk⟩
  rw [readNode, hh, DefinitionReader.lift_ok]
  simp only [hj]

theorem group_node : readNode (room + 1) (.object fields) =
    do return .group j (← (← membersOf fields).mapM (readNode room)) := by
  have hh := (header_ok (.object fields) kind fields).mpr ⟨rfl, hk⟩
  rw [readNode, hh, DefinitionReader.lift_ok]
  simp only [hj]

end

theorem leaf_fails (kind : String) (fields : Fields) (n : Nat) (e : CompileError) :
    (do countLeaf; return .leaf (← readLeaf kind fields) :
      DefinitionReader Condition).Fails n e ↔
        200 ≤ n ∧ e = .invalidDefinition .tooManyLeaves ∨
          n < 200 ∧ readLeaf kind fields = .error e := by
  simp only [fails_bind, fails_count, reads_count, fails_lift, fails_pure]
  constructor
  · rintro (h | ⟨_, _, ⟨hn, rfl⟩, hl | ⟨_, _, _, hf⟩⟩)
    · exact .inl h
    · exact .inr ⟨hn, hl⟩
    · cases hf
  · rintro (h | ⟨hn, hl⟩)
    · exact .inl h
    · exact .inr ⟨(), _, ⟨hn, rfl⟩, .inl hl⟩

theorem members_fail (j : Junction) (room : Nat) (fields : Fields) (n : Nat) (e : CompileError) :
    (do return .group j (← (← membersOf fields).mapM (readNode room)) :
      DefinitionReader Condition).Fails n e ↔ membersOf fields = .error e ∨
        ∃ vs, membersOf fields = .ok vs ∧ (vs.mapM (readNode room)).Fails n e := by
  simp only [fails_bind, fails_lift, reads_lift, fails_pure]
  constructor
  · rintro (h | ⟨vs, _, ⟨hv, rfl⟩, hf | ⟨_, _, _, hf⟩⟩)
    · exact .inl h
    · exact .inr ⟨vs, hv, hf⟩
    · cases hf
  · rintro (h | ⟨vs, hv, hf⟩)
    · exact .inl h
    · exact .inr ⟨vs, n, ⟨hv, rfl⟩, .inl hf⟩

theorem refused_fails {p : Place} {e : CompileError} (h : p.Refused e) :
    (readNode p.room p.value).Fails p.leaves e := by
  cases h with
  | header hh =>
    rw [bad_header hh]
    exact (fails_throw _ _ _).mpr rfl
  | deep hk hj =>
    rw [group_closed hk hj]
    exact (fails_throw _ _ _).mpr rfl
  | members hk hj hm =>
    rw [group_node hk hj]
    exact (members_fail _ _ _ _ _).mpr (.inl hm)
  | crowded hk hj hn =>
    rw [leaf_node hk hj]
    exact (leaf_fails _ _ _ _).mpr (.inl ⟨hn, rfl⟩)
  | leaf hk hj hn hl =>
    rw [leaf_node hk hj]
    exact (leaf_fails _ _ _ _).mpr (.inr ⟨hn, hl⟩)

theorem opened_fails {p q : Place} {e : CompileError} (h : p.Opens q)
    (hf : (readNode q.room q.value).Fails q.leaves e) :
    (readNode p.room p.value).Fails p.leaves e := by
  cases h with
  | member hk hj hm hr =>
    rw [group_node hk hj]
    refine (members_fail _ _ _ _ _).mpr (.inr ⟨_, hm, (fails_all _ _ _ _).mpr ?_⟩)
    exact ⟨_, _, _, _, _, rfl, hr, hf⟩

theorem node_fails (p : Place) (e : CompileError) : (readNode p.room p.value).Fails p.leaves e ↔
    p.Refused e ∨ ∃ q, p.Opens q ∧ (readNode q.room q.value).Fails q.leaves e := by
  obtain ⟨room, v, n⟩ := p
  constructor
  · intro h
    cases hh : headerOf v with
    | error d =>
      rw [bad_header hh] at h
      obtain rfl := (fails_throw _ _ _).mp h
      exact .inl (.header hh)
    | ok header =>
      obtain ⟨kind, fields⟩ := header
      obtain ⟨rfl, hk⟩ := (header_ok v kind fields).mp hh
      cases hj : Junction.ofName? kind with
      | none =>
        rw [leaf_node hk hj, leaf_fails] at h
        rcases h with ⟨hn, rfl⟩ | ⟨hn, hl⟩
        · exact .inl (.crowded hk hj hn)
        · exact .inl (.leaf hk hj hn hl)
      | some j =>
        cases room with
        | zero =>
          rw [group_closed hk hj] at h
          obtain rfl := (fails_throw _ _ _).mp h
          exact .inl (.deep hk hj)
        | succ room =>
          rw [group_node hk hj, members_fail] at h
          rcases h with hm | ⟨vs, hm, hf⟩
          · exact .inl (.members hk hj hm)
          · obtain ⟨before, w, behind, ms, k, rfl, hr, hw⟩ := (fails_all _ _ _ _).mp hf
            exact .inr ⟨⟨room, w, k⟩, .member hk hj hm hr, hw⟩
  · rintro (h | ⟨q, ho, hf⟩)
    · exact refused_fails h
    · exact opened_fails ho hf

/-- A tree is refused for the first of its nodes that is refused by itself. -/
theorem tree_fails (p : Place) (e : CompileError) :
    (readNode p.room p.value).Fails p.leaves e ↔ ∃ q, p.Comes q ∧ q.Refused e := by
  constructor
  · obtain ⟨room, v, n⟩ := p
    induction room using Nat.strongRecOn generalizing v n with
    | _ room ih =>
      intro h
      rcases (node_fails _ e).mp h with h | ⟨q, ho, hf⟩
      · exact ⟨_, .refl, h⟩
      · have hq : q.room < room := by
          cases ho
          exact Nat.lt_succ_self _
        obtain ⟨r, hc, hr⟩ := ih q.room hq q.value q.leaves hf
        exact ⟨r, .head ho hc, hr⟩
  · rintro ⟨q, hc, hr⟩
    induction hc using Relation.ReflTransGen.head_induction_on with
    | refl => exact (node_fails q e).mpr (.inl hr)
    | head ho _ ih => exact (node_fails _ e).mpr (.inr ⟨_, ho, ih⟩)

/-- A value that stands for an operator. -/
inductive Stated where
  | count (v : Json)
  | property (v : Json)

namespace Stated

def Known : Stated → Prop
  | count v => ∃ op, Form.named CountOperator.name v op
  | property v => ∃ op, Form.named PropertyOperator.name v op

/-- How the operator is named in a refusal: as it is if it is a text, else as JSON. -/
def shown : Stated → String
  | count (.text s) | property (.text s) => s
  | count v | property v => v.compact

end Stated

/-- The first of the operators that is not known. -/
inductive FirstUnknown : List Stated → Stated → Prop where
  | here {o : Stated} {os : List Stated} (h : ¬o.Known) : FirstUnknown (o :: os) o
  | behind {p o : Stated} {os : List Stated} (h : p.Known) (ho : FirstUnknown os o) :
      FirstUnknown (p :: os) o

def ownOperator (kind : String) (fields : Fields) : List Stated :=
  match kind with
  | "event" => (Json.get? fields "count_operator").toList.map .count
  | "person_property" => (Json.get? fields "operator").toList.map .property
  | _ => []

def filterValues (kind : String) (fields : Fields) : List Json :=
  if kind = "event" ∨ kind = "performed_regularly" then items (Json.get? fields "event_filters")
  else []
where
  items : Option Json → List Json
    | some (.list vs) => vs
    | _ => []

def fieldOperator : Json → List Stated
  | .object fields => (Json.get? fields "operator").toList.map .property
  | _ => []

def itemOperator : Json → List Stated
  | .list (_ :: v :: _) => [.property v]
  | _ => []

/-- The operators that are looked at before the leaf is decoded. -/
def checkedOperators (kind : String) (fields : Fields) : List Stated :=
  ownOperator kind fields ++ (filterValues kind fields).flatMap fieldOperator

/-- The step refuses the first of the operators that is not known, and does nothing else. -/
structure Checks (x : Except CompileError Unit) (os : List Stated) (context : String) : Prop where
  passes : x = .ok () ↔ ∀ o ∈ os, o.Known
  fails (e : CompileError) :
    x = .error e ↔ ∃ o, FirstUnknown os o ∧ e = .invalidOperator o.shown context

theorem first_unknown_cons (p : Stated) (os : List Stated) (o : Stated) :
    FirstUnknown (p :: os) o ↔ ¬p.Known ∧ o = p ∨ p.Known ∧ FirstUnknown os o := by
  constructor
  · intro h
    cases h with
    | here h => exact .inl ⟨h, rfl⟩
    | behind h ho => exact .inr ⟨h, ho⟩
  · rintro (⟨h, rfl⟩ | ⟨h, ho⟩)
    · exact .here h
    · exact .behind h ho

theorem first_unknown_append (os ps : List Stated) (o : Stated) : FirstUnknown (os ++ ps) o ↔
    FirstUnknown os o ∨ (∀ p ∈ os, p.Known) ∧ FirstUnknown ps o := by
  induction os with
  | nil =>
    have hn : ¬FirstUnknown [] o := fun h => by cases h
    simp [hn]
  | cons p os ih =>
    rw [List.cons_append, first_unknown_cons, first_unknown_cons, ih, List.forall_mem_cons]
    tauto

theorem first_unknown_mem {os : List Stated} {o : Stated} (h : FirstUnknown os o) :
    o ∈ os ∧ ¬o.Known := by
  induction h with
  | here h => exact ⟨List.mem_cons_self, h⟩
  | behind _ _ ih => exact ⟨List.mem_cons_of_mem _ ih.1, ih.2⟩

section

variable {context : String}

theorem checks_nil : Checks (.ok ()) [] context := by
  refine ⟨by simp, fun e => iff_of_false (by simp) ?_⟩
  rintro ⟨o, h, _⟩
  cases h

theorem checks_append {x y : Except CompileError Unit} {os ps : List Stated}
    (hx : Checks x os context) (hy : Checks y ps context) :
    Checks (x >>= fun _ => y) (os ++ ps) context := by
  constructor
  · rw [Binder.except_bind, List.forall_mem_append, ← hx.passes, ← hy.passes]
    exact ⟨fun ⟨_, h⟩ => h, fun h => ⟨(), h⟩⟩
  · intro e
    rw [error_bind, hx.fails, hy.fails]
    constructor
    · rintro (⟨o, ho, he⟩ | ⟨_, hp, o, ho, he⟩)
      · exact ⟨o, (first_unknown_append _ _ _).mpr (.inl ho), he⟩
      · exact ⟨o, (first_unknown_append _ _ _).mpr (.inr ⟨hx.passes.mp hp, ho⟩), he⟩
    · rintro ⟨o, ho, he⟩
      rcases (first_unknown_append _ _ _).mp ho with ho | ⟨hp, ho⟩
      · exact .inl ⟨o, ho, he⟩
      · exact .inr ⟨(), hx.passes.mpr hp, o, ho, he⟩

theorem checks_known {o : Stated} (h : o.Known) : Checks (.ok ()) [o] context := by
  refine ⟨by simp [h], fun e => iff_of_false (by simp) ?_⟩
  rintro ⟨p, hp, _⟩
  obtain ⟨hm, hn⟩ := first_unknown_mem hp
  exact hn (List.mem_singleton.mp hm ▸ h)

theorem checks_unknown {o : Stated} (h : ¬o.Known) :
    Checks (.error (.invalidOperator o.shown context)) [o] context := by
  refine ⟨by simp [h], fun e => ?_⟩
  constructor
  · intro he
    exact ⟨o, .here h, (Except.error.inj he).symm⟩
  · rintro ⟨p, hp, rfl⟩
    obtain rfl := List.mem_singleton.mp (first_unknown_mem hp).1
    rfl

theorem checks_operator {α : Type} (d : Json.Decoder α) (stated : Json → Stated)
    (hk : ∀ v, (stated v).Known ↔ ∃ a, d v = .ok a)
    (hs : ∀ v, (stated v).shown = match v with | .text s => s | v => v.compact)
    (fields : Fields) (key : String) :
    Checks (checkOperator d fields key context) ((Json.get? fields key).toList.map stated)
      context := by
  unfold checkOperator
  cases Json.get? fields key with
  | none => exact checks_nil
  | some v =>
    cases hv : d v with
    | ok a =>
      simp only [hv]
      exact checks_known ((hk v).mpr ⟨a, hv⟩)
    | error m =>
      have unknown : ¬(stated v).Known := fun h => by
        obtain ⟨a, ha⟩ := (hk v).mp h
        cases hv.symm.trans ha
      have refused : Checks _ _ context := checks_unknown unknown
      rw [hs] at refused
      simp only [hv]
      exact refused

theorem checks_count (fields : Fields) (key : String) :
    Checks (checkOperator CountOperator.decode fields key context)
      ((Json.get? fields key).toList.map .count) context :=
  checks_operator CountOperator.decode .count
    (fun v => exists_congr fun op => (count_operator_decode v op).symm)
    (fun v => by cases v <;> rfl) fields key

theorem checks_property (fields : Fields) (key : String) :
    Checks (checkOperator PropertyOperator.decode fields key context)
      ((Json.get? fields key).toList.map .property) context :=
  checks_operator PropertyOperator.decode .property
    (fun v => exists_congr fun op => (property_operator_decode v op).symm)
    (fun v => by cases v <;> rfl) fields key

theorem checks_all {f : Json → Except CompileError Unit} {stated : Json → List Stated}
    (h : ∀ v, Checks (f v) (stated v) context) (vs : List Json) :
    Checks (vs.forM f) (vs.flatMap stated) context := by
  induction vs with
  | nil => exact checks_nil
  | cons v vs ih =>
    rw [List.flatMap_cons]
    exact checks_append (h v) ih

theorem checks_filters {kind : String} (hk : kind = "event" ∨ kind = "performed_regularly")
    (fields : Fields) : Checks (checkFilterOperators fields context)
      ((filterValues kind fields).flatMap fieldOperator) context := by
  rw [filterValues, if_pos hk, checkFilterOperators]
  have one (v : Json) : Checks (match v with
      | .object filter => checkOperator PropertyOperator.decode filter "operator" context
      | _ => .ok ()) (fieldOperator v) context := by
    cases v with
    | object fields => exact checks_property fields "operator"
    | null | bool _ | number _ | text _ | list _ => exact checks_nil
  split
  next filters hf =>
    rw [hf]
    exact checks_all one filters
  next hf =>
    have hn : filterValues.items (Json.get? fields "event_filters") = [] := by
      unfold filterValues.items
      split
      next vs hv => exact absurd hv (hf vs)
      next => rfl
    rw [hn]
    exact checks_nil

end

theorem decoding_fails {α : Type} {kind name : String} {r : Json.Record α} {make : α → Leaf}
    {fields : Fields} {e : CompileError} (h : decodeLeaf kind name r make fields = .error e) :
    ∃ m, e = .invalidDefinition (.badLeaf kind m) := by
  unfold decodeLeaf at h
  split at h
  next => cases h
  next m _ => exact ⟨m, (Except.error.inj h).symm⟩

theorem unchecked {kind : String} (fields : Fields) (he : kind ≠ "event")
    (hp : kind ≠ "person_property") (hr : kind ≠ "performed_regularly") :
    checkedOperators kind fields = [] := by
  have unfiltered : filterValues kind fields = [] := if_neg (by simp [he, hr])
  have unnamed : ownOperator kind fields = [] := by
    unfold ownOperator
    split
    next => exact absurd rfl he
    next => exact absurd rfl hp
    next => rfl
  rw [checkedOperators, unfiltered, unnamed]
  rfl

theorem leaf_checked (kind : String) (fields : Fields) :
    ∃ (check : Except CompileError Unit) (decoding : Except CompileError Leaf),
      readLeaf kind fields = (check >>= fun _ => decoding) ∧
      Checks check (checkedOperators kind fields) kind ∧
      ∀ e, decoding = .error e → (∃ m, e = .invalidDefinition (.badLeaf kind m)) ∨
        e = .unsupportedCondition kind ∧ filterValues kind fields = [] := by
  unfold readLeaf
  split
  case h_1 =>
    exact ⟨_, _, (bind_assoc _ _ _).symm, checks_append (checks_count fields "count_operator")
      (checks_filters (.inl rfl) fields), fun e he => .inl (decoding_fails he)⟩
  case h_2 =>
    refine ⟨_, _, rfl, ?_, fun e he => .inl (decoding_fails he)⟩
    rw [checkedOperators, filterValues, if_neg (by decide), List.flatMap_nil, List.append_nil]
    exact checks_property fields "operator"
  case h_3 =>
    rw [unchecked fields (by decide) (by decide) (by decide)]
    exact ⟨.ok (), _, rfl, checks_nil, fun e he => .inl (decoding_fails he)⟩
  case h_4 =>
    exact ⟨_, _, rfl, checks_filters (.inr rfl) fields, fun e he => .inl (decoding_fails he)⟩
  case h_5 =>
    rw [unchecked fields (by decide) (by decide) (by decide)]
    exact ⟨.ok (), _, rfl, checks_nil, fun e he => .inl (decoding_fails he)⟩
  case h_6 he hp _ hr _ =>
    rw [unchecked fields he hp hr]
    have unfiltered : filterValues kind fields = [] := if_neg (not_or.mpr ⟨he, hr⟩)
    exact ⟨.ok (), _, rfl, checks_nil, fun e he => .inr ⟨(Except.error.inj he).symm, unfiltered⟩⟩

theorem leaf_misnamed (kind : String) (fields : Fields) (s c : String) :
    readLeaf kind fields = .error (.invalidOperator s c) ↔
      c = kind ∧ ∃ o, FirstUnknown (checkedOperators kind fields) o ∧ s = o.shown := by
  obtain ⟨check, decoding, hr, hc, hd⟩ := leaf_checked kind fields
  rw [hr, error_bind, hc.fails]
  constructor
  · rintro (⟨o, ho, he⟩ | ⟨_, _, he⟩)
    · obtain ⟨rfl, rfl⟩ := CompileError.invalidOperator.inj he
      exact ⟨rfl, o, ho, rfl⟩
    · rcases hd _ he with ⟨m, he⟩ | ⟨he, _⟩ <;> cases he
  · rintro ⟨rfl, o, ho, rfl⟩
    exact .inl ⟨o, ho, rfl⟩

theorem items_known {v : Json} {f : EventFilter} (h : EventFilter.Written v f) :
    ∀ o ∈ itemOperator v, o.Known := by
  cases h with
  | object | property => simp [itemOperator]
  | operator s h | operand s h => simpa [itemOperator] using ⟨_, h⟩

theorem filters_written {l : Leaf} {fields : Fields} (hd : (Json.object fields).Distinct)
    (h : l.Written fields) : ∀ v ∈ filterValues l.kind fields, ∃ f, EventFilter.Written v f := by
  have written {fs : List EventFilter}
      (hf : (Form.list EventFilter.Written).Defaulted fields "event_filters" [] fs) :
      ∀ v ∈ filterValues.items (Json.get? fields "event_filters"),
        ∃ f, EventFilter.Written v f := by
    rcases hf with ⟨w, hw, vs, rfl, hv⟩ | ⟨ha, -⟩
    · rw [(Json.get_field (Json.distinct_object.mp hd).1 _ _).mpr hw]
      exact Json.forall₂_left hv
    · rw [(Json.get_absent _ _).mpr ha]
      simp [filterValues.items]
  cases l with
  | event c => exact written h.filters
  | regular c => exact written h.filters
  | person c | firstTime c | member c => simp [filterValues, Leaf.kind]

theorem leaf_unlooked {kind : String} {fields : Fields} (hd : (Json.object fields).Distinct)
    (hk : ∀ o ∈ checkedOperators kind fields, o.Known)
    (hu : ∃ o ∈ (filterValues kind fields).flatMap itemOperator, ¬o.Known) :
    ∃ m, readLeaf kind fields = .error (.invalidDefinition (.badLeaf kind m)) := by
  obtain ⟨o, hm, hu⟩ := hu
  obtain ⟨v, hv, ho⟩ := List.mem_flatMap.mp hm
  cases hr : readLeaf kind fields with
  | ok l =>
    obtain ⟨rfl, hl⟩ := (leaf_read hd kind l).mp hr
    obtain ⟨f, hf⟩ := filters_written hd hl v hv
    exact absurd (items_known hf o ho) hu
  | error e =>
    obtain ⟨check, decoding, hs, hc, he⟩ := leaf_checked kind fields
    rw [hs, hc.passes.mpr hk] at hr
    rcases he e hr with ⟨m, rfl⟩ | ⟨-, hn⟩
    · exact ⟨m, rfl⟩
    · rw [hn] at hv
      cases hv

/-- The first node that is refused by itself is a leaf of kind `c`, and its first unknown operator
is named `s`. -/
def Misnamed (v : Json) (s c : String) : Prop :=
  ∃ room fields k o, Place.Comes ⟨10, v, 0⟩ ⟨room, .object fields, k⟩ ∧ k < 200 ∧
    Json.get? fields "kind" = some (.text c) ∧ FirstUnknown (checkedOperators c fields) o ∧
    s = o.shown

theorem header_unnamed {v : Json} {s c : String} :
    headerOf v ≠ .error (.invalidOperator s c) := by
  intro h
  unfold headerOf at h
  split at h
  · split at h <;> cases h
  · cases h

theorem members_unnamed {fields : Fields} {s c : String} :
    membersOf fields ≠ .error (.invalidOperator s c) := by
  intro h
  unfold membersOf at h
  split at h
  · cases h
  · cases h
  · split at h <;> cases h
  · cases h

theorem refused_misnamed (p : Place) (s c : String) : p.Refused (.invalidOperator s c) ↔
    ∃ fields, p.value = .object fields ∧ p.leaves < 200 ∧
      Json.get? fields "kind" = some (.text c) ∧
        ∃ o, FirstUnknown (checkedOperators c fields) o ∧ s = o.shown := by
  constructor
  · intro h
    cases h with
    | header h => exact absurd h header_unnamed
    | members _ _ hm => exact absurd hm members_unnamed
    | leaf hk _ hn hl =>
      obtain ⟨rfl, o, ho, hs⟩ := (leaf_misnamed _ _ _ _).mp hl
      exact ⟨_, rfl, hn, hk, o, ho, hs⟩
  · obtain ⟨room, v, n⟩ := p
    rintro ⟨fields, rfl, hn, hk, o, ho, rfl⟩
    have hj : Junction.ofName? c = none := by
      by_contra hj
      obtain ⟨j, hj⟩ := Option.ne_none_iff_exists'.mp hj
      have hw := (junction_word c j).mp hj
      have hu : checkedOperators c fields = [] := by
        apply unchecked fields <;>
          · rintro rfl
            revert hw
            cases j <;> decide
      rw [hu] at ho
      cases ho
    exact .leaf hk hj hn ((leaf_misnamed c fields _ c).mpr ⟨rfl, o, ho, rfl⟩)

theorem definition_fails {v : Json} {e : CompileError} (h : (readNode 10 v).Fails 0 e) :
    Definition.ofJson v = .error e := by
  rw [Definition.ofJson, error_bind]
  exact .inl h

theorem definition_misnamed (v : Json) (s c : String) :
    Definition.ofJson v = .error (.invalidOperator s c) ↔ Misnamed v s c := by
  have hf : (readNode 10 v).Fails 0 (.invalidOperator s c) ↔ Misnamed v s c := by
    refine (tree_fails ⟨10, v, 0⟩ _).trans ?_
    constructor
    · rintro ⟨⟨room, w, k⟩, hc, hr⟩
      obtain ⟨fields, rfl, hn, hk, o, ho, hs⟩ := (refused_misnamed _ s c).mp hr
      exact ⟨room, fields, k, o, hc, hn, hk, ho, hs⟩
    · rintro ⟨room, fields, k, o, hc, hn, hk, ho, hs⟩
      exact ⟨_, hc, (refused_misnamed _ s c).mpr ⟨fields, rfl, hn, hk, o, ho, hs⟩⟩
  rw [← hf]
  constructor
  · intro h
    rw [Definition.ofJson, error_bind] at h
    obtain h | ⟨⟨c, m⟩, -, h⟩ := h
    · exact h
    · cases c <;> cases h
  · exact definition_fails

theorem comes_distinct {p q : Place} (hc : p.Comes q) (h : p.value.Distinct) :
    q.value.Distinct := by
  induction hc with
  | refl => exact h
  | tail _ ho ih =>
    cases ho with
    | member _ _ hm _ =>
      obtain ⟨hm, -⟩ := (members_ok (Json.distinct_object.mp ih).1 _).mp hm
      exact member_values_distinct ih hm _ (by simp)

/-- A definition is refused for an operator just if the first of its nodes that is refused by itself
is a leaf with an unknown operator, of its own or in a filter that is written as an object. The
first such operator is named. If the only unknown operators of that leaf are in filters that are
written as lists, the leaf is refused as one that is not decoded. -/
theorem operators_named (v : Json) (text s c : String) :
    (Definition.ofJson v = .error (.invalidOperator s c) ↔ Misnamed v s c) ∧
    (Definition.read text = .error (.invalidOperator s c) ↔
      text.utf8ByteSize ≤ 65536 ∧ ∃ w, Json.read text = .ok w ∧ Misnamed w s c) ∧
    ∀ room fields k, v.Distinct → Place.Comes ⟨10, v, 0⟩ ⟨room, .object fields, k⟩ → k < 200 →
      Json.get? fields "kind" = some (.text c) → (∀ o ∈ checkedOperators c fields, o.Known) →
      (∃ o ∈ (filterValues c fields).flatMap itemOperator, ¬o.Known) →
        ∃ m, Definition.ofJson v = .error (.invalidDefinition (.badLeaf c m)) := by
  refine ⟨definition_misnamed v s c, ?_, ?_⟩
  · have hl : Limits.definitionBytes = 65536 := rfl
    rw [Definition.read, hl]
    split
    next ht => exact iff_of_false (by simp [flawed]) fun h => Nat.not_le_of_lt ht h.1
    next ht =>
      have ht := Nat.le_of_not_lt ht
      cases hr : Json.read text with
      | error f => simp [flawed]
      | ok w => simp [ht, definition_misnamed]
  · intro room fields k hv hc hn hk hl hu
    have hj : Junction.ofName? c = none := by
      obtain ⟨o, ho, -⟩ := hu
      by_cases hf : c = "event" ∨ c = "performed_regularly"
      · rcases hf with rfl | rfl <;> rfl
      · rw [filterValues, if_neg hf] at ho
        cases ho
    obtain ⟨m, hm⟩ := leaf_unlooked (comes_distinct hc hv) hl hu
    exact ⟨m, definition_fails ((tree_fails ⟨10, v, 0⟩ _).mpr ⟨_, hc, .leaf hk hj hn hm⟩)⟩

def visitFields (filters : List Json) : Fields :=
  [("kind", .text "event"), ("event_name", .text "visit"), ("count_operator", .text "gte"),
    ("count", .int 1), ("time_window_days", .int 7), ("event_filters", .list filters)]

def visitValue (filters : List Json) : Json :=
  .object [("kind", .text "or"),
    ("members", .list [.object [("kind", .text "or")], .object (visitFields filters)])]

theorem visits_reached (filters : List Json) :
    Place.Comes ⟨10, visitValue filters, 0⟩ ⟨9, .object (visitFields filters), 0⟩ := by
  have nobody : ([.object [("kind", .text "or")]].mapM (readNode 9)).Reads 0 [.group .or []] 0 := by
    have hk : Json.get? [("kind", Json.text "or")] "kind" = some (.text "or") := rfl
    rw [List.mapM_cons, group_node hk rfl]
    rfl
  exact .single (.member (j := .or) rfl rfl rfl nobody)

theorem tilde_unknown : ¬(Stated.property (.text "~")).Known := by
  rintro ⟨op, h⟩
  have named := (property_operator_decode (.text "~") op).mpr h
  cases named

theorem visits_named :
    let isSet : Json := .list [.text "plan", .text "is_set"]
    let named : Json := .object [("property", .text "plan"), ("operator", .text "~")]
    let listed : Json := .list [.text "plan", .text "~", .text "pro"]
    Definition.ofJson (visitValue [isSet, named]) = .error (.invalidOperator "~" "event") ∧
    (visitValue [listed]).Distinct ∧
    (∀ o ∈ checkedOperators "event" (visitFields [listed]), o.Known) ∧
    (∃ o ∈ (filterValues "event" (visitFields [listed])).flatMap itemOperator, ¬o.Known) ∧
    ∃ m, Definition.ofJson (visitValue [listed]) =
      .error (.invalidDefinition (.badLeaf "event" m)) := by
  intro isSet named listed
  obtain ⟨misnamed, -, -⟩ := operators_named (visitValue [isSet, named]) "" "~" "event"
  obtain ⟨-, -, unlooked⟩ := operators_named (visitValue [listed]) "" "~" "event"
  have known : (Stated.count (.text "gte")).Known := ⟨.atLeast, .inl rfl⟩
  have first : FirstUnknown (checkedOperators "event" (visitFields [isSet, named]))
      (.property (.text "~")) := .behind known (.here tilde_unknown)
  have hd : (visitValue [listed]).Distinct := by
    simp [visitValue, visitFields, listed, Json.int, Json.distinct_object, Json.distinct_list,
      Json.Distinct.number, Json.Distinct.text]
  have hk : ∀ o ∈ checkedOperators "event" (visitFields [listed]), o.Known :=
    List.forall_mem_singleton.mpr known
  have hu : ∃ o ∈ (filterValues "event" (visitFields [listed])).flatMap itemOperator, ¬o.Known :=
    ⟨_, List.mem_singleton.mpr rfl, tilde_unknown⟩
  have hm : Misnamed (visitValue [isSet, named]) "~" "event" :=
    ⟨9, _, 0, _, visits_reached _, by decide, rfl, first, rfl⟩
  exact ⟨misnamed.mpr hm, hd, hk, hu,
    unlooked _ _ _ hd (visits_reached _) (by decide) rfl hk hu⟩

def listedText : String :=
  "\x7b\"kind\":\"and\",\"members\":[\x7b\"kind\":\"event\",\"event_name\":\"visit\"," ++
    "\"count_operator\":\"gte\",\"count\":1,\"time_window_days\":7," ++
    "\"event_filters\":[[\"plan\",\"~\",\"pro\"]]\x7d]\x7d"

/-- The unknown operator of a filter that is written as a list is not named, though the leaf is
decoded with a known one in its place. -/
theorem listed_operator_unnamed :
    let filter (operator : String) : Json := .list [.text "plan", .text operator, .text "pro"]
    let refused : CompileError := .invalidDefinition (.badLeaf "event"
      (.unknownVariant "~" (PropertyOperator.table.map Prod.fst)))
    Place.Comes ⟨10, visitValue [filter "~"], 0⟩ ⟨9, .object (visitFields [filter "~"]), 0⟩ ∧
    (∃ o ∈ (filterValues "event" (visitFields [filter "~"])).flatMap itemOperator, ¬o.Known) ∧
    (∃ l, readLeaf "event" (visitFields [filter "eq"]) = .ok l) ∧
    Definition.ofJson (visitValue [filter "~"]) = .error refused ∧
    Definition.read listedText = .error refused := by
  intro filter refused
  have decoded : Definition.ofJson (visitValue [filter "~"]) = .error refused :=
    (Except.reason_some _ _).mp (by decide +kernel)
  have read : Definition.read listedText = .error refused := by
    have chars : listedText.toList = _ :=
      Json.chars_append (Json.chars_append String.toList_ofList String.toList_ofList)
        String.toList_ofList
    rw [Definition.read_chars chars]
    exact (Except.reason_some _ _).mp (by decide +kernel)
  exact ⟨visits_reached _, ⟨_, List.mem_singleton.mpr rfl, tilde_unknown⟩, ⟨_, rfl⟩, decoded, read⟩

end CohortQuery
