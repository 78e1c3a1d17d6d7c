import CohortQuery.Cohort.Read
import CohortQuery.Proofs.Cohort.Grammar
import CohortQuery.Proofs.Json.Legible
import Mathlib.Data.String.Basic

/-!
# Reading definitions

Reading takes exactly what is written, within the bounds. Leaves are counted from one node to the
next, so a node is read from a number of leaves to another.
-/

set_option autoImplicit false

namespace CohortQuery

open Json (Fields Form)

theorem junction_word (s : String) (j : Junction) : Junction.ofName? s = some j ↔ s ∈ j.words := by
  constructor
  · intro h
    unfold Junction.ofName? at h
    split at h
    all_goals cases h
    all_goals simp [Junction.words]
  · intro h
    cases j <;> simp only [Junction.words, List.mem_cons, List.not_mem_nil, or_false] at h <;>
      rcases h with rfl | rfl <;> rfl

theorem leaf_name (l : Leaf) : Junction.ofName? l.kind = none := by
  cases l <;> rfl

theorem named_in {α : Type} {table : List (String × α)} {name : α → String}
    (hs : ∀ a, nameIn? table (name a) = some a) (ht : ∀ e ∈ table, e.1 = name e.2) (s : String)
    (a : α) : nameIn? table s = some a ↔ s = name a := by
  constructor
  · intro h
    obtain ⟨before, behind, he, _⟩ := List.lookup_eq_some_iff.mp h
    exact ht (s, a) (by simp [he])
  · rintro rfl
    exact hs a

theorem count_operator_decode (v : Json) (op : CountOperator) :
    CountOperator.decode v = .ok op ↔ Form.named CountOperator.name v op :=
  Json.named_decode (named_in (fun op => by cases op <;> rfl) (by decide)) v op

theorem property_operator_name (op : PropertyOperator) :
    nameIn? PropertyOperator.table op.name = some op := by
  cases op with
  | equals negated | contains negated | isSet negated => cases negated <;> rfl
  | ordered order => cases order <;> rfl

theorem property_operator_decode (v : Json) (op : PropertyOperator) :
    PropertyOperator.decode v = .ok op ↔ Form.named PropertyOperator.name v op :=
  Json.named_decode (named_in property_operator_name (by decide)) v op

theorem period_decode (v : Json) (p : Period) :
    Period.decode v = .ok p ↔ Form.named Period.name v p :=
  Json.named_decode (named_in (fun p => by cases p <;> rfl) (by decide)) v p

open Json (items_field items_of record_defaulted record_list record_of record_required text_decode
  word_decode flag_decode operand_decode list_decode)

theorem filter_object {fields : Fields} (h : (Json.object fields).Distinct) (f : EventFilter) :
    EventFilter.decode (.object fields) = .ok f ↔ EventFilter.Written (.object fields) f := by
  obtain ⟨hn, _⟩ := Json.distinct_object.mp h
  have property := record_required "property" hn (fun _ => rfl) (fun v _ => text_decode v)
    fun g => record_of "EventFilter" EventFilter.mk g fields
  have operator := record_defaulted "operator" (.equals false) hn (fun _ => rfl)
    (fun v _ => property_operator_decode v) property
  have operand := record_defaulted "value" none hn (fun _ => rfl)
    (fun v _ => operand_decode v) operator
  refine (operand f).trans ?_
  constructor
  · rintro ⟨_, _, ⟨_, _, ⟨_, _, rfl, hp, rfl⟩, ho, rfl⟩, hv, rfl⟩
    exact .object hp ho hv
  · rintro ⟨hp, ho, hv⟩
    exact ⟨_, _, ⟨_, _, ⟨_, _, rfl, hp, rfl⟩, ho, rfl⟩, hv, rfl⟩

theorem filter_list (items : List Json) (f : EventFilter) :
    EventFilter.decode (.list items) = .ok f ↔ EventFilter.Written (.list items) f := by
  have property (expected : String) :=
    items_field (f := .required "property" Json.Decode.text)
      fun g rest => items_of EventFilter.mk g expected items rest
  have operator (expected : String) :=
    items_field (f := .defaulted "operator" (.equals false) PropertyOperator.decode)
      (property expected)
  have operand (expected : String) :=
    items_field (f := .defaulted "value" none Json.Decode.operand) (operator expected)
  refine (record_list _ _ items f).trans ((operand _ f []).trans ?_)
  constructor
  · rintro ⟨_, _, o, ⟨_, _, op, ⟨_, _, s, ⟨rfl, rfl⟩, hp, rfl⟩, ho, rfl⟩, hv, rfl⟩
    obtain ⟨v, rfl, hp⟩ | ⟨rfl, rfl, hp⟩ := hp
    · obtain rfl := (text_decode v s).mp hp
      obtain ⟨v, rfl, ho⟩ | ⟨rfl, rfl, ho⟩ := ho
      · have ho := (property_operator_decode v op).mp ho
        obtain ⟨w, rfl, hv⟩ | ⟨rfl, _, hv⟩ := hv
        · exact .operand s ho ((operand_decode w o).mp hv)
        · cases hv
          exact .operator s ho
      · obtain ⟨w, hw, _⟩ | ⟨_, _, hv⟩ := hv
        · cases hw
        · cases ho
          cases hv
          exact .property s
    · cases hp
  · intro h
    cases h with
    | property s =>
      exact ⟨_, _, none, ⟨_, _, .equals false, ⟨_, _, s, ⟨rfl, rfl⟩, .inl ⟨_, rfl, rfl⟩, rfl⟩,
        .inr ⟨rfl, rfl, rfl⟩, rfl⟩, .inr ⟨rfl, rfl, rfl⟩, rfl⟩
    | operator s ho =>
      exact ⟨_, _, none, ⟨_, _, _, ⟨_, _, s, ⟨rfl, rfl⟩, .inl ⟨_, rfl, rfl⟩, rfl⟩,
        .inl ⟨_, rfl, (property_operator_decode _ _).mpr ho⟩, rfl⟩, .inr ⟨rfl, rfl, rfl⟩, rfl⟩
    | operand s ho hv =>
      exact ⟨_, _, _, ⟨_, _, _, ⟨_, _, s, ⟨rfl, rfl⟩, .inl ⟨_, rfl, rfl⟩, rfl⟩,
        .inl ⟨_, rfl, (property_operator_decode _ _).mpr ho⟩, rfl⟩,
        .inl ⟨_, rfl, (operand_decode _ _).mpr hv⟩, rfl⟩

theorem filter_decode {v : Json} (h : v.Distinct) (f : EventFilter) :
    EventFilter.decode v = .ok f ↔ EventFilter.Written v f := by
  match v with
  | .object fields => exact filter_object h f
  | .list items => exact filter_list items f
  | .null | .bool _ | .number _ | .text _ =>
    refine iff_of_false ?_ ?_ <;>
      · intro h
        cases h

theorem filters_decode {v : Json} (h : v.Distinct) (fs : List EventFilter) :
    Json.Decode.list EventFilter.decode v = .ok fs ↔ Form.list EventFilter.Written v fs := by
  refine list_decode ?_ fs
  rintro items rfl w hw
  exact filter_decode (Json.distinct_list.mp h w hw)

section

variable {fields : Fields} (h : (Json.object fields).Distinct) (name : String)

include h

theorem event_decode (c : EventCondition) :
    EventCondition.record.decode name (.object fields) = .ok c ↔ c.Written fields := by
  obtain ⟨hn, hd⟩ := Json.distinct_object.mp h
  have event := record_required "event_name" hn (fun _ => rfl) (fun v _ => text_decode v)
    fun g => record_of name EventCondition.mk g fields
  have operator := record_required "count_operator" hn (fun _ => rfl)
    (fun v _ => count_operator_decode v) event
  have count := record_required "count" hn (fun _ => rfl) (fun v _ => word_decode v) operator
  have window := record_required "time_window_days" hn (fun _ => rfl)
    (fun v _ => word_decode v) count
  have filters := record_defaulted "event_filters" [] hn (fun _ => rfl)
    (fun v hv => filters_decode (hd _ hv (by simp))) window
  refine (filters c).trans ?_
  constructor
  · rintro ⟨_, _, ⟨_, _, ⟨_, _, ⟨_, _, ⟨_, _, rfl, he, rfl⟩, ho, rfl⟩, hc, rfl⟩, hw, rfl⟩, hf, rfl⟩
    exact ⟨he, ho, hc, hw, hf⟩
  · rintro ⟨he, ho, hc, hw, hf⟩
    exact ⟨_, _, ⟨_, _, ⟨_, _, ⟨_, _, ⟨_, _, rfl, he, rfl⟩, ho, rfl⟩, hc, rfl⟩, hw, rfl⟩, hf, rfl⟩

theorem person_decode (c : PersonCondition) :
    PersonCondition.record.decode name (.object fields) = .ok c ↔ c.Written fields := by
  obtain ⟨hn, _⟩ := Json.distinct_object.mp h
  have property := record_required "property" hn (fun _ => rfl) (fun v _ => text_decode v)
    fun g => record_of name PersonCondition.mk g fields
  have operator := record_required "operator" hn (fun _ => rfl)
    (fun v _ => property_operator_decode v) property
  have operand := record_defaulted "value" none hn (fun _ => rfl)
    (fun v _ => operand_decode v) operator
  refine (operand c).trans ?_
  constructor
  · rintro ⟨_, _, ⟨_, _, ⟨_, _, rfl, hp, rfl⟩, ho, rfl⟩, hv, rfl⟩
    exact ⟨hp, ho, hv⟩
  · rintro ⟨hp, ho, hv⟩
    exact ⟨_, _, ⟨_, _, ⟨_, _, rfl, hp, rfl⟩, ho, rfl⟩, hv, rfl⟩

theorem first_time_decode (c : FirstTimeCondition) :
    FirstTimeCondition.record.decode name (.object fields) = .ok c ↔ c.Written fields := by
  obtain ⟨hn, _⟩ := Json.distinct_object.mp h
  have event := record_required "event_name" hn (fun _ => rfl) (fun v _ => text_decode v)
    fun g => record_of name FirstTimeCondition.mk g fields
  have window := record_required "time_window_days" hn (fun _ => rfl)
    (fun v _ => word_decode v) event
  refine (window c).trans ?_
  constructor
  · rintro ⟨_, _, ⟨_, _, rfl, he, rfl⟩, hw, rfl⟩
    exact ⟨he, hw⟩
  · rintro ⟨he, hw⟩
    exact ⟨_, _, ⟨_, _, rfl, he, rfl⟩, hw, rfl⟩

theorem regular_decode (c : RegularCondition) :
    RegularCondition.record.decode name (.object fields) = .ok c ↔ c.Written fields := by
  obtain ⟨hn, hd⟩ := Json.distinct_object.mp h
  have event := record_required "event_name" hn (fun _ => rfl) (fun v _ => text_decode v)
    fun g => record_of name RegularCondition.mk g fields
  have period := record_required "period_type" hn (fun _ => rfl) (fun v _ => period_decode v) event
  have total := record_required "total_periods" hn (fun _ => rfl) (fun v _ => word_decode v) period
  have least := record_required "min_periods" hn (fun _ => rfl) (fun v _ => word_decode v) total
  have window := record_required "time_window_days" hn (fun _ => rfl)
    (fun v _ => word_decode v) least
  have filters := record_defaulted "event_filters" [] hn (fun _ => rfl)
    (fun v hv => filters_decode (hd _ hv (by simp))) window
  refine (filters c).trans ?_
  constructor
  · rintro ⟨_, _, ⟨_, _, ⟨_, _, ⟨_, _, ⟨_, _, ⟨_, _, rfl, he, rfl⟩, hp, rfl⟩, ht, rfl⟩, hl, rfl⟩,
      hw, rfl⟩, hf, rfl⟩
    exact ⟨he, hp, ht, hl, hw, hf⟩
  · rintro ⟨he, hp, ht, hl, hw, hf⟩
    exact ⟨_, _, ⟨_, _, ⟨_, _, ⟨_, _, ⟨_, _, ⟨_, _, rfl, he, rfl⟩, hp, rfl⟩, ht, rfl⟩, hl, rfl⟩, hw,
      rfl⟩, hf, rfl⟩

theorem member_decode (c : MemberCondition) :
    MemberCondition.record.decode name (.object fields) = .ok c ↔ c.Written fields := by
  obtain ⟨hn, _⟩ := Json.distinct_object.mp h
  have cohort := record_required "cohort_id" hn (fun _ => rfl) (fun v _ => text_decode v)
    fun g => record_of name MemberCondition.mk g fields
  have negated := record_defaulted "negated" false hn (fun _ => rfl)
    (fun v _ => flag_decode v) cohort
  refine (negated c).trans ?_
  constructor
  · rintro ⟨_, _, ⟨_, _, rfl, hc, rfl⟩, hn, rfl⟩
    exact ⟨hc, hn⟩
  · rintro ⟨hc, hn⟩
    exact ⟨_, _, ⟨_, _, rfl, hc, rfl⟩, hn, rfl⟩

end

theorem operator_checked {α : Type} {d : Json.Decoder α} {form : Form α}
    (hd : ∀ v a, d v = .ok a ↔ form v a) {fields : Fields} (hn : (fields.map Prod.fst).Nodup)
    {key : String} {a : α} (ha : form.Required fields key a) (context : String) :
    checkOperator d fields key context = .ok () := by
  obtain ⟨v, hv, ha⟩ := ha
  simp only [checkOperator, (Json.get_field hn key v).mpr hv, (hd v a).mpr ha]

theorem all_checked {ε α : Type} {f : α → Except ε Unit} {as : List α}
    (h : ∀ a ∈ as, f a = .ok ()) : as.forM f = .ok () := by
  induction as with
  | nil => rfl
  | cons a as ih =>
    obtain ⟨ha, ht⟩ := List.forall_mem_cons.mp h
    rw [List.forM, Binder.except_bind]
    exact ⟨(), ha, ih ht⟩

theorem filter_checked {v : Json} {f : EventFilter} (h : EventFilter.Written v f)
    (hd : v.Distinct) {fields : Fields} (hv : v = .object fields) (context : String) :
    checkOperator PropertyOperator.decode fields "operator" context = .ok () := by
  cases h with
  | object _ operator _ =>
    obtain rfl := Json.object.inj hv
    obtain ⟨hn, _⟩ := Json.distinct_object.mp hd
    rcases operator with ho | ⟨ha, _⟩
    · exact operator_checked property_operator_decode hn ho context
    · simp only [checkOperator, (Json.get_absent _ _).mpr ha]
  | property | operator | operand => cases hv

theorem filters_checked {fields : Fields} (h : (Json.object fields).Distinct)
    {fs : List EventFilter}
    (hf : (Form.list EventFilter.Written).Defaulted fields "event_filters" [] fs)
    (context : String) : checkFilterOperators fields context = .ok () := by
  obtain ⟨hn, hd⟩ := Json.distinct_object.mp h
  rcases hf with ⟨v, hv, items, rfl, hw⟩ | ⟨ha, _⟩
  · have hi := Json.distinct_list.mp (hd _ hv (by simp))
    simp only [checkFilterOperators, (Json.get_field hn _ _).mpr hv]
    apply all_checked
    intro w hm
    obtain ⟨f, hwf⟩ := Json.forall₂_left hw w hm
    split
    next => exact filter_checked hwf (hi _ hm) rfl context
    next => rfl
  · simp only [checkFilterOperators, (Json.get_absent _ _).mpr ha]

theorem leaf_decoded {α : Type} (kind name : String) (r : Json.Record α) (make : α → Leaf)
    (fields : Fields) (l : Leaf) : decodeLeaf kind name r make fields = .ok l ↔
      ∃ c, r.decode name (.object fields) = .ok c ∧ l = make c := by
  unfold decodeLeaf
  cases r.decode name (.object fields) <;> simp [eq_comm]

theorem check_first {ε : Type} {x : Except ε Unit} {P : Prop} (h : P → x = .ok ()) :
    (∃ u, x = .ok u ∧ P) ↔ P := by
  constructor
  · rintro ⟨_, _, hp⟩
    exact hp
  · exact fun hp => ⟨(), h hp, hp⟩

theorem leaf_read {fields : Fields} (h : (Json.object fields).Distinct) (kind : String)
    (l : Leaf) : readLeaf kind fields = .ok l ↔ l.kind = kind ∧ l.Written fields := by
  obtain ⟨hn, _⟩ := Json.distinct_object.mp h
  unfold readLeaf
  split
  case h_1 =>
    simp only [Binder.except_bind, leaf_decoded, event_decode h]
    rw [check_first, check_first]
    · cases l <;> simp [Leaf.kind, Leaf.Written]
    · rintro ⟨c, hc, _⟩
      exact filters_checked h hc.filters _
    · rintro ⟨_, _, c, hc, _⟩
      exact operator_checked count_operator_decode hn hc.operator _
  case h_2 =>
    simp only [Binder.except_bind, leaf_decoded, person_decode h]
    rw [check_first]
    · cases l <;> simp [Leaf.kind, Leaf.Written]
    · rintro ⟨c, hc, _⟩
      exact operator_checked property_operator_decode hn hc.operator _
  case h_3 =>
    simp only [leaf_decoded, first_time_decode h]
    cases l <;> simp [Leaf.kind, Leaf.Written]
  case h_4 =>
    simp only [Binder.except_bind, leaf_decoded, regular_decode h]
    rw [check_first]
    · cases l <;> simp [Leaf.kind, Leaf.Written]
    · rintro ⟨c, hc, _⟩
      exact filters_checked h hc.filters _
  case h_5 =>
    simp only [leaf_decoded, member_decode h]
    cases l <;> simp [Leaf.kind, Leaf.Written]
  case h_6 =>
    refine iff_of_false (by simp) ?_
    rintro ⟨rfl, _⟩
    cases l <;> contradiction

namespace DefinitionReader

variable {α β : Type}

/-- From `n` leaves the step comes to `a` and `m` leaves. -/
def Reads (x : DefinitionReader α) (n : Nat) (a : α) (m : Nat) : Prop :=
  x.run n = .ok (a, m)

theorem reads_pure (a b : α) (n m : Nat) :
    (pure a : DefinitionReader α).Reads n b m ↔ b = a ∧ m = n := by
  constructor
  · intro h
    cases h
    exact ⟨rfl, rfl⟩
  · rintro ⟨rfl, rfl⟩
    rfl

theorem reads_bind (x : DefinitionReader α) (f : α → DefinitionReader β) (n : Nat) (b : β)
    (m : Nat) : (x >>= f).Reads n b m ↔ ∃ a k, x.Reads n a k ∧ (f a).Reads k b m := by
  unfold Reads
  rw [StateT.run_bind, Binder.except_bind, Prod.exists]

theorem lift_ok (a : α) (f : α → DefinitionReader β) :
    (liftM (.ok a : Except CompileError α) : DefinitionReader α) >>= f = f a :=
  rfl

theorem reads_lift (r : Except CompileError α) (n : Nat) (a : α) (m : Nat) :
    (liftM r : DefinitionReader α).Reads n a m ↔ r = .ok a ∧ m = n := by
  cases r with
  | error e =>
    refine iff_of_false ?_ (by simp)
    intro h
    cases h
  | ok b =>
    refine (reads_pure b a n m).trans ?_
    rw [Except.ok.injEq, eq_comm]

theorem reads_throw (e : CompileError) (n : Nat) (a : α) (m : Nat) :
    ¬(throw e : DefinitionReader α).Reads n a m := by
  intro h
  cases h

theorem reads_count (n : Nat) (u : Unit) (m : Nat) :
    countLeaf.Reads n u m ↔ n < 200 ∧ m = n + 1 := by
  have h : countLeaf.run n = if n < Limits.leavesPerDefinition then .ok ((), n + 1)
      else flawed .tooManyLeaves := rfl
  have hl : Limits.leavesPerDefinition = 200 := rfl
  unfold Reads
  rw [h, hl]
  split
  next hn => simp [hn, eq_comm]
  next hn => simp [hn, flawed]

theorem reads_all {f : Json → DefinitionReader α} {P : Json → α → Prop} {counted : α → List β}
    {vs : List Json} (h : ∀ v ∈ vs, ∀ n ≤ 200, ∀ a m,
      (f v).Reads n a m ↔ P v a ∧ m = n + (counted a).length ∧ m ≤ 200) (n : Nat) (hn : n ≤ 200)
    (as : List α) (m : Nat) : (vs.mapM f).Reads n as m ↔
      List.Forall₂ P vs as ∧ m = n + (as.flatMap counted).length ∧ m ≤ 200 := by
  induction vs generalizing n as m with
  | nil =>
    rw [List.mapM_nil, reads_pure, List.forall₂_nil_left_iff]
    constructor
    · rintro ⟨rfl, rfl⟩
      exact ⟨rfl, rfl, hn⟩
    · rintro ⟨rfl, rfl, _⟩
      exact ⟨rfl, rfl⟩
  | cons v vs ih =>
    obtain ⟨hv, ht⟩ := List.forall_mem_cons.mp h
    rw [List.mapM_cons, List.forall₂_cons_left_iff]
    simp only [reads_bind, reads_pure]
    constructor
    · rintro ⟨a, k, ha, bs, l, hb, rfl, rfl⟩
      obtain ⟨hp, rfl, hk⟩ := (hv n hn a k).mp ha
      obtain ⟨hr, rfl, hl⟩ := (ih ht _ hk bs _).mp hb
      exact ⟨⟨a, bs, hp, hr, rfl⟩, by simp [Nat.add_assoc], hl⟩
    · rintro ⟨⟨a, bs, ha, hb, rfl⟩, rfl, hl⟩
      rw [List.flatMap_cons, List.length_append, ← Nat.add_assoc] at hl ⊢
      have hk : n + (counted a).length ≤ 200 := by omega
      exact ⟨a, _, (hv n hn a _).mpr ⟨ha, rfl, hk⟩, bs, _,
        (ih ht _ hk bs _).mpr ⟨hb, rfl, hl⟩, rfl, rfl⟩

end DefinitionReader

open DefinitionReader (Reads reads_all reads_bind reads_count reads_lift reads_pure reads_throw)

theorem header_ok (v : Json) (kind : String) (fields : Fields) :
    headerOf v = .ok (kind, fields) ↔
      v = .object fields ∧ Json.get? fields "kind" = some (.text kind) := by
  unfold headerOf
  split
  next fs =>
    split
    next s hs =>
      simp only [Except.ok.injEq, Prod.mk.injEq, Json.object.injEq]
      constructor
      · rintro ⟨rfl, rfl⟩
        exact ⟨rfl, hs⟩
      · rintro ⟨rfl, hk⟩
        cases hs.symm.trans hk
        exact ⟨rfl, rfl⟩
    next hs =>
      refine iff_of_false (by simp [flawed]) ?_
      rintro ⟨he, hk⟩
      cases he
      exact hs _ hk
  next ho =>
    refine iff_of_false (by simp [flawed]) ?_
    rintro ⟨rfl, _⟩
    exact ho _ rfl

theorem members_ok {fields : Fields} (hn : (fields.map Prod.fst).Nodup) (vs : List Json) :
    membersOf fields = .ok vs ↔ MemberValues fields vs ∧ vs.length ≤ 50 := by
  have hl : Limits.membersPerGroup = 50 := rfl
  have he (h : vs = []) : vs.length ≤ 50 := by simp [h]
  rw [member_values hn, membersOf, hl]
  split
  next hv => simpa [hv, eq_comm] using he
  next hv => simpa [hv, eq_comm] using he
  next ws hv =>
    have hw : ws = vs → (ws.length ≤ 50 ↔ vs.length ≤ 50) := by
      rintro rfl
      rfl
    by_cases hs : ws.length ≤ 50
    · simpa [hv, hs] using fun h => (hw h).mp hs
    · simpa [hv, hs, flawed] using fun h => Nat.lt_of_not_le (mt (hw h).mpr hs)
  next v hn hl hv =>
    cases v <;> simp_all [flawed]

theorem leaf_step (kind : String) (fields : Fields) (n : Nat) (c : Condition) (m : Nat) :
    (do countLeaf; return .leaf (← readLeaf kind fields) :
      DefinitionReader Condition).Reads n c m ↔
        (n < 200 ∧ m = n + 1) ∧ ∃ l, readLeaf kind fields = .ok l ∧ c = .leaf l := by
  simp only [reads_bind, reads_count, reads_lift, reads_pure]
  constructor
  · rintro ⟨_, _, ⟨hn, rfl⟩, l, _, ⟨hl, rfl⟩, rfl, rfl⟩
    exact ⟨⟨hn, rfl⟩, l, hl, rfl⟩
  · rintro ⟨⟨hn, rfl⟩, l, hl, rfl⟩
    exact ⟨(), _, ⟨hn, rfl⟩, l, _, ⟨hl, rfl⟩, rfl, rfl⟩

theorem header_step (v : Json) (f : String × Fields → DefinitionReader Condition) (n : Nat)
    (c : Condition) (m : Nat) : (do f (← headerOf v) : DefinitionReader Condition).Reads n c m ↔
      ∃ kind fields, (v = .object fields ∧ Json.get? fields "kind" = some (.text kind)) ∧
        (f (kind, fields)).Reads n c m := by
  simp only [reads_bind, reads_lift, Prod.exists, header_ok]
  constructor
  · rintro ⟨kind, fields, _, ⟨h, rfl⟩, hr⟩
    exact ⟨kind, fields, h, hr⟩
  · rintro ⟨kind, fields, h, hr⟩
    exact ⟨kind, fields, n, ⟨h, rfl⟩, hr⟩

theorem node_step (room : Nat) (v : Json) (n : Nat) (c : Condition) (m : Nat) :
    (readNode room v).Reads n c m ↔ ∃ kind fields,
      (v = .object fields ∧ Json.get? fields "kind" = some (.text kind)) ∧
        ((Junction.ofName? kind = none ∧ (n < 200 ∧ m = n + 1) ∧
            ∃ l, readLeaf kind fields = .ok l ∧ c = .leaf l) ∨
          ∃ j, Junction.ofName? kind = some j ∧ ∃ k, room = k + 1 ∧
            ∃ vs, membersOf fields = .ok vs ∧
              ∃ ms, (vs.mapM (readNode k)).Reads n ms m ∧ c = .group j ms) := by
  cases room with
  | zero =>
    rw [readNode]
    refine (header_step v _ n c m).trans (exists_congr fun kind => exists_congr fun fields => ?_)
    refine and_congr_right fun _ => ?_
    dsimp only
    cases Junction.ofName? kind with
    | none => simp only [leaf_step, true_and, reduceCtorEq, false_and, exists_false, or_false]
    | some j =>
      refine iff_of_false (reads_throw _ _ _ _) ?_
      rintro (⟨hn, _⟩ | ⟨_, _, k, hk, _⟩)
      · cases hn
      · cases hk
  | succ room =>
    rw [readNode]
    refine (header_step v _ n c m).trans (exists_congr fun kind => exists_congr fun fields => ?_)
    refine and_congr_right fun _ => ?_
    dsimp only
    cases Junction.ofName? kind with
    | none => simp only [leaf_step, true_and, reduceCtorEq, false_and, exists_false, or_false]
    | some j =>
      simp only [reads_bind, reads_lift, reads_pure]
      constructor
      · rintro ⟨vs, _, ⟨hv, rfl⟩, ms, k, hr, rfl, rfl⟩
        exact .inr ⟨j, rfl, room, rfl, vs, hv, ms, hr, rfl⟩
      · rintro (⟨hn, _⟩ | ⟨i, hi, k, hk, vs, hv, ms, hr, rfl⟩)
        · cases hn
        · cases hi
          cases hk
          exact ⟨vs, n, ⟨hv, rfl⟩, ms, m, hr, rfl, rfl⟩

/-- A node is read just if it is written, stays within the bounds and finds room for its
leaves. -/
theorem node_reads (room : Nat) : ∀ v : Json, v.Distinct → ∀ n ≤ 200, ∀ c m,
    (readNode room v).Reads n c m ↔
      (Tree.Written v c ∧ c.height ≤ room ∧ c.Narrow 50) ∧ m = n + c.leaves.length ∧ m ≤ 200 := by
  induction room using Nat.strongRecOn with
  | _ room ih =>
    intro v hd n hn c m
    have members (k : Nat) (hk : k < room) (vs : List Json) (hv : ∀ v ∈ vs, v.Distinct)
        (ms : List Condition) := reads_all (fun v h => ih k hk v (hv v h)) n hn ms m
    simp only [Json.forall₂_and] at members
    rw [node_step]
    constructor
    · rintro ⟨kind, fields, ⟨rfl, hk⟩, h⟩
      obtain ⟨hu, _⟩ := Json.distinct_object.mp hd
      have hk := (Json.get_field hu _ _).mp hk
      rcases h with ⟨_, ⟨hm, rfl⟩, l, hl, rfl⟩ | ⟨j, hj, k, rfl, vs, hv, ms, hr, rfl⟩
      · obtain ⟨rfl, hw⟩ := (leaf_read hd kind l).mp hl
        exact ⟨⟨.leaf hk hw, Nat.zero_le _, trivial⟩, rfl, hm⟩
      · obtain ⟨hv, hw⟩ := (members_ok hu vs).mp hv
        obtain ⟨⟨hf, hb⟩, rfl, hm⟩ :=
          (members k (Nat.lt_succ_self k) vs (member_values_distinct hd hv) ms).mp hr
        refine ⟨⟨.group hk ((junction_word _ _).mp hj) hv hf, ?_, ?_⟩, ?_, hm⟩
        · exact (Tree.height_group j ms _).mpr ⟨k, rfl, fun c hc => (hb c hc).1⟩
        · exact (Tree.narrow_group 50 j ms).mpr ⟨hf.length_eq ▸ hw, fun c hc => (hb c hc).2⟩
        · rw [Tree.leaves_group]
    · rintro ⟨⟨hw, hh, ho⟩, rfl, hm⟩
      cases hw with
      | @leaf fields l hk h =>
        obtain ⟨hu, _⟩ := Json.distinct_object.mp hd
        have hl : n < 200 := hm
        exact ⟨_, fields, ⟨rfl, (Json.get_field hu _ _).mpr hk⟩, .inl ⟨leaf_name l, ⟨hl, rfl⟩, l,
          (leaf_read hd _ l).mpr ⟨rfl, h⟩, rfl⟩⟩
      | @group fields j word vs ms hk hj hv h =>
        obtain ⟨hu, _⟩ := Json.distinct_object.mp hd
        obtain ⟨k, rfl, hb⟩ := (Tree.height_group j ms _).mp hh
        obtain ⟨hl, ho⟩ := (Tree.narrow_group 50 j ms).mp ho
        have hs := congrArg List.length (Tree.leaves_group j ms)
        exact ⟨_, fields, ⟨rfl, (Json.get_field hu _ _).mpr hk⟩, .inr ⟨j,
          (junction_word _ _).mpr hj, k, rfl, vs, (members_ok hu vs).mpr ⟨hv, h.length_eq ▸ hl⟩, ms,
          (members k (Nat.lt_succ_self k) vs (member_values_distinct hd hv) ms).mpr
            ⟨⟨h, fun c hc => ⟨hb c hc, ho c hc⟩⟩, hs ▸ rfl, hm⟩, rfl⟩⟩

theorem definition_read {v : Json} (hv : v.Distinct) (d : Definition) :
    Definition.ofJson v = .ok d ↔ Tree.Written v d.root ∧ d.Bounded := by
  have hr := node_reads 10 v hv 0 (by omega)
  rw [Definition.ofJson, Binder.except_bind]
  constructor
  · rintro ⟨⟨c, m⟩, hc, h⟩
    obtain ⟨⟨hw, hh, hn⟩, rfl, hm⟩ := (hr c m).mp hc
    cases c with
    | leaf l => cases h
    | group j ms =>
      obtain rfl := Except.ok.inj h
      rw [Nat.zero_add] at hm
      exact ⟨hw, hh, hn, hm⟩
  · rintro ⟨hw, hh, hn, hm⟩
    exact ⟨(d.root, d.root.leaves.length), (hr _ _).mpr ⟨⟨hw, hh, hn⟩, (Nat.zero_add _).symm, hm⟩,
      rfl⟩

theorem text_read (s : String) (d : Definition) : Definition.read s = .ok d ↔
    s.utf8ByteSize ≤ 65536 ∧ ∃ v, Json.read s = .ok v ∧ Tree.Written v d.root ∧ d.Bounded := by
  have hl : Limits.definitionBytes = 65536 := rfl
  rw [Definition.read, hl]
  split
  next hs => exact iff_of_false (by simp [flawed]) fun h => Nat.not_le_of_lt hs h.1
  next hs =>
    have hs := Nat.le_of_not_lt hs
    cases hr : Json.read s with
    | error f => simp [flawed]
    | ok v => simp [hs, definition_read (Json.read_distinct hr)]

theorem Definition.read_chars {s : String} {cs : List Char} (h : s.toList = cs) :
    Definition.read s = if Limits.definitionBytes < String.utf8Len cs then flawed .tooLarge
      else ((Json.readChars cs).mapError fun f => .invalidDefinition (.malformed f)).bind
        Definition.ofJson := by
  rw [Definition.read, Json.read_chars h, ← String.utf8ByteSize_ofList, ← h, String.ofList_toList]
  cases Json.readChars s.toList <;> rfl

/-- A value is read as a definition just if it is written for it and the definition is within the
bounds. Fields that a node or filter is not asked for do not matter, nor does the order of
fields. -/
theorem definition_accepted (v : Json) (hv : v.Distinct) (d : Definition) :
    (Definition.ofJson v = .ok d ↔ Tree.Written v d.root ∧ d.Bounded) ∧
      ∀ w, w.Distinct → Tree.Alike v w →
        (Definition.ofJson w = .ok d ↔ Definition.ofJson v = .ok d) := by
  refine ⟨definition_read hv d, fun w hw ha => ?_⟩
  rw [definition_read hw, definition_read hv]
  constructor
  · rintro ⟨h, hb⟩
    exact ⟨tree_alike d.root w v (alike_symm ha) hw hv h, hb⟩
  · rintro ⟨h, hb⟩
    exact ⟨tree_alike d.root v w ha hv hw h, hb⟩

def buyersDefinition : Definition :=
  ⟨.and, [.group .or [],
    .leaf (.event ⟨"purchase", .atLeast, 2, 30, [⟨"plan", .isSet false, none⟩]⟩)]⟩

def purchaseFields : Fields :=
  [("kind", .text "event"), ("count", .int 2), ("event_name", .text "purchase"),
    ("count_operator", .object [("gte", .null)]), ("time_window_days", .int 30),
    ("event_filters", .list [.list [.text "plan", .text "is_set"]])]

def shuffledFields : Fields :=
  [("negated", .bool true), ("event_filters", .list [.list [.text "plan", .text "is_set"]]),
    ("event_name", .text "purchase"), ("count", .int 2), ("time_window_days", .int 30),
    ("count_operator", .object [("gte", .null)]), ("kind", .text "event")]

def buyersValue (purchase : Fields) : Json :=
  .object [("note", .null), ("members", .list [.object [("kind", .text "or")], .object purchase]),
    ("kind", .text "AND")]

theorem buyers_distinct :
    (buyersValue purchaseFields).Distinct ∧ (buyersValue shuffledFields).Distinct := by
  constructor <;>
    simp [buyersValue, purchaseFields, shuffledFields, Json.int, Json.distinct_object,
      Json.distinct_list, Json.Distinct.null, Json.Distinct.bool, Json.Distinct.number,
      Json.Distinct.text]

theorem buyers_alike : Tree.Alike (buyersValue purchaseFields) (buyersValue shuffledFields) := by
  have purchase : Tree.Alike (.object purchaseFields) (.object shuffledFields) := by
    refine .leaf rfl rfl (fun j => by cases j <;> decide) ?_ fun _ => .some (.same _)
    simp [askedNames, Json.get?, List.lookup_cons, purchaseFields, shuffledFields]
  exact .members (j := .and) rfl rfl (by decide) rfl rfl
    (.cons (.same _) (.cons purchase .nil))

theorem buyers_written : Tree.Written (buyersValue purchaseFields) buyersDefinition.root := by
  have nobody : Tree.Written (.object [("kind", .text "or")]) (.group .or []) :=
    .group (List.mem_singleton.mpr rfl) (by decide) (.absent (by simp)) .nil
  have filter : EventFilter.Written (.list [.text "plan", .text "is_set"])
      ⟨"plan", .isSet false, none⟩ :=
    .operator "plan" (.inl rfl)
  have leaf : EventCondition.Written purchaseFields
      ⟨"purchase", .atLeast, 2, 30, [⟨"plan", .isSet false, none⟩]⟩ :=
    ⟨⟨_, by simp [purchaseFields], rfl⟩,
      ⟨_, by simp [purchaseFields, CountOperator.name], .inr rfl⟩,
      ⟨_, by simp [purchaseFields], rfl, by decide⟩,
      ⟨_, by simp [purchaseFields], rfl, by decide⟩,
      .inl ⟨_, by simp [purchaseFields], _, rfl, .cons filter .nil⟩⟩
  have purchase : Tree.Written (.object purchaseFields) (.leaf (.event _)) :=
    .leaf List.mem_cons_self leaf
  have word : ("kind", Json.text "AND") ∈ [("note", Json.null),
      ("members", .list [.object [("kind", .text "or")], .object purchaseFields]),
      ("kind", .text "AND")] := by
    simp
  exact .group word (by decide) (.list (List.mem_cons_of_mem _ List.mem_cons_self))
    (.cons nobody (.cons purchase .nil))

theorem buyers_bounded : buyersDefinition.Bounded := by
  have nobody : (Tree.group .or ([] : List Condition)).Narrow 50 :=
    (Tree.narrow_group 50 _ _).mpr ⟨by decide, by simp⟩
  refine ⟨by decide, (Tree.narrow_group 50 _ _).mpr ⟨by decide, ?_⟩, by decide⟩
  rw [buyersDefinition, List.forall_mem_cons, List.forall_mem_singleton]
  exact ⟨nobody, trivial⟩

theorem buyers_accepted : (buyersValue purchaseFields).Distinct ∧
    (buyersValue shuffledFields).Distinct ∧
    Tree.Alike (buyersValue purchaseFields) (buyersValue shuffledFields) ∧
    Definition.ofJson (buyersValue shuffledFields) = .ok buyersDefinition := by
  obtain ⟨hv, hw⟩ := buyers_distinct
  obtain ⟨hr, ho⟩ := definition_accepted _ hv buyersDefinition
  exact ⟨hv, hw, buyers_alike, (ho _ hw buyers_alike).mpr (hr.mpr ⟨buyers_written, buyers_bounded⟩)⟩

end CohortQuery
