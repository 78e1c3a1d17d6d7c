import CohortQuery.Proofs.Compiled
import CohortQuery.Proofs.Sql.Twin

/-!
# Literals and the text

Definitions of one shape differ in their literals only. They are lowered to one predicate
and bind values of the same types under the same names, so that no literal, project or date
shows in the text of a statement. What is shown on the way is shown for definitions whose
names of properties are merely related.
-/

set_option autoImplicit false

namespace CohortQuery

open Sql (Fragment Moment Predicate PropertyTest RowTest)

def Json.SameType : Json → Json → Prop
  | .null, .null | .bool _, .bool _ | .number _, .number _ | .text _, .text _
  | .list _, .list _ | .object _, .object _ => True
  | _, _ => False

/-- An operand that is left out counts as null. -/
def SameOperand (v w : Option Json) : Prop :=
  (v.getD .null).SameType (w.getD .null)

section

variable (R : String → String → Prop)

structure EventFilter.Like (f g : EventFilter) : Prop where
  property : R f.property g.property
  operator : f.operator = g.operator
  operand : SameOperand f.operand g.operand

/-- The leaves differ in names of events and cohorts, operands, counts and windows. Their
names of properties are related. -/
def Leaf.Like : Leaf → Leaf → Prop
  | .event c, .event e =>
    c.operator = e.operator ∧ List.Forall₂ (EventFilter.Like R) c.filters e.filters
  | .person c, .person e =>
    R c.property e.property ∧ c.operator = e.operator ∧ SameOperand c.operand e.operand
  | .firstTime _, .firstTime _ => True
  | .regular c, .regular e =>
    c.period = e.period ∧ List.Forall₂ (EventFilter.Like R) c.filters e.filters
  | .member c, .member e => c.negated = e.negated
  | _, _ => False

end

def Definition.SameShape (d e : Definition) : Prop :=
  Tree.Rel (Leaf.Like Eq) d.root e.root

def Definition.SameFrame (d e : Definition) : Prop :=
  Tree.Rel (Leaf.Like fun _ _ => True) d.root e.root

/-- The values have the same types and go under the same names. -/
def SameBinding (us vs : Literals) : Prop :=
  List.Forall₂ (fun u v => u.1 = v.1 ∧ u.2.type = v.2.type) us vs

theorem same_binding_append {us vs ws xs : Literals} (h : SameBinding us vs)
    (k : SameBinding ws xs) : SameBinding (us ++ ws) (vs ++ xs) :=
  List.rel_append h k

theorem same_binding_texts (stem s t : String) :
    SameBinding [(stem, .text s)] [(stem, .text t)] :=
  .cons ⟨rfl, rfl⟩ .nil

def Scalar.SameType : Scalar → Scalar → Prop
  | .text _, .text _ | .number _, .number _ | .flag _, .flag _ => True
  | _, _ => False

def Scalar.Reads : Scalar → Json → Prop
  | .text _, .text _ | .number _, .number _ | .flag _, .bool _ => True
  | _, _ => False

theorem scalar_reads {property : String} {operand : Option Json} {s : Scalar}
    (h : Scalar.ofOperand property operand = .ok s) : ∃ v, operand = some v ∧ s.Reads v := by
  unfold Scalar.ofOperand at h
  split at h
  · next t =>
    obtain rfl := Except.ok.inj h
    exact ⟨.text t, rfl, trivial⟩
  · next i =>
    obtain rfl := Except.ok.inj h
    exact ⟨.number (.integer i), rfl, trivial⟩
  · next x =>
    split at h
    · obtain rfl := Except.ok.inj h
      exact ⟨.number (.real x), rfl, trivial⟩
    · cases h
  · next b =>
    obtain rfl := Except.ok.inj h
    exact ⟨.bool b, rfl, trivial⟩
  · cases h
  · cases h
  · cases h
  · cases h

theorem scalar_same {p q : String} {v w : Option Json} {s t : Scalar} (h : SameOperand v w)
    (hs : Scalar.ofOperand p v = .ok s) (ht : Scalar.ofOperand q w = .ok t) :
    s.SameType t := by
  obtain ⟨v, rfl, hv⟩ := scalar_reads hs
  obtain ⟨w, rfl, hw⟩ := scalar_reads ht
  cases s <;> cases v <;> try exact hv.elim
  all_goals cases w <;> try exact h.elim
  all_goals cases t <;> first | exact hw.elim | trivial

theorem check_text {allowed : AllowList} {s : String} {key : PropertyName}
    (h : allowed.check s = .ok key) : key.text = s := by
  unfold AllowList.check PropertyName.ofText? at h
  split at h
  · cases h
  · next n hn =>
    split at h
    · obtain rfl := Except.ok.inj h
      split at hn
      · obtain rfl := Option.some.inj hn
        rfl
      · cases hn
    · cases h

theorem test_same {property other : String} {v w : Option Json} {n : Nat}
    {op : PropertyOperator} {t u : PropertyTest} {us vs : Literals} (h : SameOperand v w)
    (ht : TestLowers property v n op t us) (hu : TestLowers other w n op u vs) :
    t = u ∧ SameBinding us vs := by
  cases ht with
  | text negated hs =>
    cases hu with
    | text => exact ⟨rfl, same_binding_texts _ _ _⟩
    | number _ hr => exact (scalar_same h hs hr).elim
    | flag _ hr => exact (scalar_same h hs hr).elim
  | number negated hs =>
    cases hu with
    | text _ hr => exact (scalar_same h hs hr).elim
    | number => exact ⟨rfl, .cons ⟨rfl, rfl⟩ .nil⟩
    | flag _ hr => exact (scalar_same h hs hr).elim
  | flag negated hs =>
    cases hu with
    | text _ hr => exact (scalar_same h hs hr).elim
    | number _ hr => exact (scalar_same h hs hr).elim
    | flag => exact ⟨rfl, same_binding_texts _ _ _⟩
  | ordered order =>
    cases hu with
    | ordered => exact ⟨rfl, .cons ⟨rfl, rfl⟩ .nil⟩
  | like negated =>
    cases hu with
    | like => exact ⟨rfl, same_binding_texts _ _ _⟩
  | isSet negated =>
    cases hu with
    | isSet => exact ⟨rfl, .nil⟩

section

variable {R : String → String → Prop} {allowed permitted : AllowList}

theorem lookup_like {property other : String} {key name : PropertyName} (bag : Sql.Bag)
    (h : R property other) (hk : allowed.check property = .ok key)
    (hn : permitted.check other = .ok name) : (Sql.Lookup.mk bag key).Like R ⟨bag, name⟩ := by
  rw [← check_text hk, ← check_text hn] at h
  exact ⟨rfl, h⟩

theorem filters_like {n : Nat} {fs gs : List EventFilter} {ts rs : List RowTest}
    {us vs : Literals} (h : List.Forall₂ (EventFilter.Like R) fs gs)
    (ht : FiltersLower allowed n fs ts us) (hr : FiltersLower permitted n gs rs vs) :
    List.Forall₂ (RowTest.Like R) ts rs ∧ SameBinding us vs := by
  induction ht generalizing gs rs vs with
  | nil =>
    cases h
    cases hr
    exact ⟨.nil, .nil⟩
  | cons hk ht _ ih =>
    cases h with
    | cons hf hfs =>
      cases hr with
      | cons hn hr hrs =>
        obtain ⟨hp, ho, hv⟩ := hf
        rw [← ho] at hr
        obtain ⟨rfl, hu⟩ := test_same hv ht hr
        rw [← hu.length_eq] at hrs
        obtain ⟨hl, hw⟩ := ih hfs hrs
        exact ⟨.cons (.property _ (lookup_like .event hp hk hn)) hl, same_binding_append hu hw⟩

theorem windowed_same {event other stem : String} {days span k l : Nat} {us vs : Literals}
    (h : SameBinding us vs) :
    SameBinding (windowLiterals event days ++ us ++ [(stem, .word k)])
      (windowLiterals other span ++ vs ++ [(stem, .word l)]) := by
  apply same_binding_append
  · exact .cons ⟨rfl, rfl⟩ (.cons ⟨rfl, rfl⟩ h)
  · exact .cons ⟨rfl, rfl⟩ .nil

theorem window_rows_like {stop : Moment} {n : Nat} {ts rs : List RowTest}
    (h : List.Forall₂ (RowTest.Like R) ts rs) :
    List.Forall₂ (RowTest.Like R) (windowRows stop n ++ ts) (windowRows stop n ++ rs) :=
  List.rel_append (List.forall₂_same.mpr fun t _ => .refl t) h

theorem leaf_like {stop : Moment} {n : Nat} {l m : Leaf} {f g : Fragment} {us vs : Literals}
    (h : l.Like R m) (hl : LeafLowers allowed stop n l f us)
    (hm : LeafLowers permitted stop n m g vs) : f.Like R g ∧ SameBinding us vs := by
  cases hl with
  | event _ _ _ hf =>
    cases hm with
    | event _ _ _ hg =>
      obtain ⟨ho, hs⟩ := h
      obtain ⟨ht, hv⟩ := filters_like hs hf hg
      rw [ho, hv.length_eq]
      exact ⟨.performed _ (window_rows_like ht), windowed_same hv⟩
    | _ => exact h.elim
  | person hk ht =>
    cases hm with
    | person hn hr =>
      obtain ⟨hp, ho, hv⟩ := h
      rw [← ho] at hr
      obtain ⟨rfl, hu⟩ := test_same hv ht hr
      exact ⟨.property _ (lookup_like .person hp hk hn), hu⟩
    | _ => exact h.elim
  | firstTime =>
    cases hm with
    | firstTime =>
      refine ⟨.performed _ (List.forall₂_same.mpr fun t _ => .refl t), ?_⟩
      exact .cons ⟨rfl, rfl⟩ (.cons ⟨rfl, rfl⟩ .nil)
    | _ => exact h.elim
  | regular _ _ _ hf =>
    cases hm with
    | regular _ _ _ hg =>
      obtain ⟨hp, hs⟩ := h
      obtain ⟨ht, hv⟩ := filters_like hs hf hg
      rw [hp, hv.length_eq]
      exact ⟨.performed _ (window_rows_like ht), windowed_same hv⟩
    | _ => exact h.elim
  | member =>
    cases hm with
    | @member e =>
      have hn : _ = e.negated := h
      rw [hn]
      exact ⟨.member _ _, .cons ⟨rfl, rfl⟩ .nil⟩
    | _ => exact h.elim

mutual

theorem node_like {stop : Moment} {room n : Nat} {s t : Condition} {p q : Predicate}
    {us vs : Literals} (h : Tree.Rel (Leaf.Like R) s t)
    (hs : NodeLowers allowed stop room n s p us) (ht : NodeLowers permitted stop room n t q vs) :
    Tree.Rel (Fragment.Like R) p q ∧ SameBinding us vs := by
  cases hs with
  | leaf hl =>
    cases ht with
    | leaf hm => exact leaf_like h hl hm
    | group => exact h.elim
  | group j hl =>
    cases ht with
    | leaf => exact h.elim
    | group k hm =>
      obtain ⟨hr, hv⟩ := members_like h.2 hl hm
      exact ⟨⟨h.1, hr⟩, hv⟩

theorem members_like {stop : Moment} {room n : Nat} {ss ts : List Condition}
    {ps qs : List Predicate} {us vs : Literals} (h : Tree.RelAll (Leaf.Like R) ss ts)
    (hs : MembersLower allowed stop room n ss ps us)
    (ht : MembersLower permitted stop room n ts qs vs) :
    Tree.RelAll (Fragment.Like R) ps qs ∧ SameBinding us vs := by
  cases hs with
  | nil =>
    cases ht with
    | nil => exact ⟨trivial, .nil⟩
    | cons => exact h.elim
  | cons hl hr =>
    cases ht with
    | nil => exact h.elim
    | cons hm hk =>
      obtain ⟨hf, hu⟩ := node_like h.1 hl hm
      rw [← hu.length_eq] at hk
      obtain ⟨hfs, hv⟩ := members_like h.2 hr hk
      exact ⟨⟨hf, hfs⟩, same_binding_append hu hv⟩

end

end

structure Bindings.Alike (b c : Bindings) : Prop where
  signature : b.params.signature = c.params.signature
  counter : b.counter = c.counter
  stop : b.stop = c.stop

theorem named_alike {b c : Bindings} (h : b.Alike c) (name : String) {v w : Value}
    (hv : v.type = w.type) : (b.bindNamed name v).2.Alike (c.bindNamed name w).2 :=
  ⟨signature_set _ _ name v w h.signature hv, h.counter, h.stop⟩

theorem bind_alike {b c : Bindings} (h : b.Alike c) (stem : String) {v w : Value}
    (hv : v.type = w.type) : (b.bind stem v).2.Alike (c.bind stem w).2 := by
  have hn : ({ b with counter := b.counter + 1 } : Bindings).Alike
      { c with counter := c.counter + 1 } :=
    ⟨h.signature, congrArg (· + 1) h.counter, h.stop⟩
  unfold Bindings.bind
  rw [h.counter] at hn ⊢
  exact named_alike hn _ hv

theorem bind_all_alike {b c : Bindings} {us vs : Literals} (h : b.Alike c)
    (hv : SameBinding us vs) : (b.bindAll us).Alike (c.bindAll vs) := by
  induction hv generalizing b c with
  | nil => exact h
  | @cons u v us vs huv _ ih =>
    obtain ⟨stem, u⟩ := u
    obtain ⟨_, v⟩ := v
    obtain ⟨hn, ht⟩ := huv
    obtain rfl : stem = _ := hn
    exact ih (bind_alike h stem ht)

theorem start_alike {projectId other : String} {dateTo date : Option String} {b c : Bindings}
    (hd : dateTo.isSome = date.isSome) (hb : Bindings.start projectId dateTo = .ok b)
    (hc : Bindings.start other date = .ok c) : b.Alike c := by
  obtain ⟨u, _, hb⟩ := (start_ok _ _ _).mp hb
  obtain ⟨v, _, hc⟩ := (start_ok _ _ _).mp hc
  obtain ⟨rfl, rfl⟩ | ⟨_, s, rfl, _, rfl⟩ := hb
  · obtain ⟨-, rfl⟩ | ⟨_, t, rfl, _, _⟩ := hc
    · exact ⟨rfl, rfl, rfl⟩
    · cases hd
  · obtain ⟨rfl, _⟩ | ⟨_, t, -, _, rfl⟩ := hc
    · cases hd
    · exact ⟨rfl, rfl, rfl⟩

/-- The queries differ in the values of their parameters only. -/
structure Query.Alike (q r : Query) : Prop where
  sql : q.sql = r.sql
  signature : q.params.signature = r.params.signature

/-- What definitions of one frame are compiled to differs in related names of properties. -/
theorem compiled_like {R : String → String → Prop} {allowed permitted : AllowList}
    {b b' c c' : Bindings} {d e : Definition} {p q : Predicate}
    (h : Tree.Rel (Leaf.Like R) d.root e.root) (hb : b.Alike b')
    (hd : (d.compile allowed).Yields b p c) (he : (e.compile permitted).Yields b' q c') :
    Tree.Rel (Fragment.Like R) p q ∧ c.Alike c' := by
  obtain ⟨us, hl, rfl⟩ := (yields_node allowed Limits.depth d.root b c p).mp hd
  obtain ⟨vs, hm, rfl⟩ := (yields_node permitted Limits.depth e.root b' c' q).mp he
  rw [← hb.stop, ← hb.counter] at hm
  obtain ⟨hp, hv⟩ := node_like h hl hm
  exact ⟨hp, bind_all_alike hb hv⟩

theorem compiled_same {allowed permitted : AllowList} {b b' c c' : Bindings} {d e : Definition}
    {p q : Predicate} (h : d.SameShape e) (hb : b.Alike b')
    (hd : (d.compile allowed).Yields b p c) (he : (e.compile permitted).Yields b' q c') :
    p = q ∧ c.Alike c' := by
  obtain ⟨hp, hc⟩ := compiled_like h hb hd he
  exact ⟨Tree.rel_eq (Tree.rel_imp (fun _ _ => Sql.fragment_like_eq) hp), hc⟩

theorem scope_params_signature (params : Params) :
    (Materialization.scopeParams params).signature = params.signature.filter
      fun (name, _) => name = Bindings.projectName || name = cohortName := by
  rw [Params.signature, Params.signature, List.filter_map]
  rfl

theorem stored_alike {b c : Bindings} (p : Predicate) (h : b.Alike c) :
    (stored p b).clear.Alike (stored p c).clear ∧ (stored p b).insert.Alike (stored p c).insert ∧
      (stored p b).count.Alike (stored p c).count := by
  have hs : (Materialization.scopeParams b.params).signature =
      (Materialization.scopeParams c.params).signature := by
    rw [scope_params_signature, scope_params_signature, h.signature]
  exact ⟨⟨rfl, hs⟩, ⟨rfl, h.signature⟩, ⟨rfl, hs⟩⟩

/-- Neither a literal nor a project nor a date shows in the text of a statement, or in the
names and types of its parameters. -/
theorem literals_leave_text {d e : Definition} {allowed permitted : AllowList}
    {projectId other : String} {dateTo date : Option String} {b c : Bindings}
    (h : d.SameShape e) (hd : dateTo.isSome = date.isSome)
    (hb : Bindings.start projectId dateTo = .ok b) (hc : Bindings.start other date = .ok c) :
    (∀ q r, d.listing allowed b = .ok q → e.listing permitted c = .ok r → q.Alike r) ∧
      ∀ cohort target m k, d.materialization cohort allowed b = .ok m →
        e.materialization target permitted c = .ok k →
          m.clear.Alike k.clear ∧ m.insert.Alike k.insert ∧ m.count.Alike k.count := by
  have ha : b.Alike c := start_alike hd hb hc
  constructor
  · intro q r hq hr
    obtain ⟨p, _, hp, rfl⟩ := (listing_ok _ _ _ _).mp hq
    obtain ⟨p', _, hp', rfl⟩ := (listing_ok _ _ _ _).mp hr
    obtain ⟨rfl, hf⟩ := compiled_same h ha hp hp'
    exact ⟨rfl, hf.signature⟩
  · intro cohort target m k hm hk
    obtain ⟨_, p, _, hp, rfl⟩ := (materialization_ok _ _ _ _ _).mp hm
    obtain ⟨_, p', _, hp', rfl⟩ := (materialization_ok _ _ _ _ _).mp hk
    obtain ⟨rfl, hf⟩ := compiled_same h ha hp hp'
    exact stored_alike p (named_alike hf cohortName rfl)

def planDefinition (plan cohort : String) : Definition :=
  ⟨.and, [.leaf (.person ⟨"plan", .equals false, some (.text plan)⟩),
    .group .or [.leaf (.member ⟨cohort, false⟩)]]⟩

theorem plans_leave_text : ∃ b c q r,
    Bindings.start "6f1c2b8e-3d4a-4e5f-8a9b-0c1d2e3f4a5b" (some "2026-01-31") = .ok b ∧
    Bindings.start "0a1b2c3d-4e5f-4a6b-8c7d-9e8f7a6b5c4d" (some "2025-06-30") = .ok c ∧
    (planDefinition "pro" "first").listing (.ofNames ["plan"]) b = .ok q ∧
    (planDefinition "free" "second").listing (.ofNames ["plan"]) c = .ok r ∧ q.Alike r := by
  obtain ⟨b, hb⟩ : ∃ b,
      Bindings.start "6f1c2b8e-3d4a-4e5f-8a9b-0c1d2e3f4a5b" (some "2026-01-31") = .ok b :=
    start_exists (Uuid.grouped_known (by decide)) (by decide)
  obtain ⟨c, hc⟩ : ∃ c,
      Bindings.start "0a1b2c3d-4e5f-4a6b-8c7d-9e8f7a6b5c4d" (some "2025-06-30") = .ok c :=
    start_exists (Uuid.grouped_known (by decide)) (by decide)
  obtain ⟨q, hq⟩ : ∃ q, (planDefinition "pro" "first").listing (.ofNames ["plan"]) b = .ok q :=
    ⟨_, rfl⟩
  obtain ⟨r, hr⟩ : ∃ r, (planDefinition "free" "second").listing (.ofNames ["plan"]) c = .ok r :=
    ⟨_, rfl⟩
  have hs : (planDefinition "pro" "first").SameShape (planDefinition "free" "second") :=
    ⟨rfl, ⟨rfl, rfl, trivial⟩, ⟨rfl, rfl, trivial⟩, trivial⟩
  have hd : (some "2026-01-31").isSome = (some "2025-06-30").isSome := rfl
  have ha := (literals_leave_text hs hd hb hc).1 q r hq hr
  exact ⟨b, c, q, r, hb, hc, hq, hr, ha⟩

end CohortQuery
