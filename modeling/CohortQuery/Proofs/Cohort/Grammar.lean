import CohortQuery.Proofs.Cohort.Tree
import CohortQuery.Proofs.Json.Record

/-!
# The grammar of definitions

What is written for filters, leaves and trees, said through the fields that stand in an object,
and the bounds of definitions. Fields that an object is not asked for do not matter, nor does the
order of fields.
-/

set_option autoImplicit false

namespace CohortQuery

open Json (Fields Form)

def Junction.words : Junction → List String
  | and => ["and", "AND"]
  | or => ["or", "OR"]

theorem leaf_word (l : Leaf) (j : Junction) : l.kind ∉ j.words := by
  cases l <;> cases j <;> simp [Leaf.kind, Junction.words]

/-- The operands of a leaf and of its filters. -/
def Leaf.operands : Leaf → List (Option Json)
  | event c => c.filters.map EventFilter.operand
  | person c => [c.operand]
  | firstTime _ | member _ => []
  | regular c => c.filters.map EventFilter.operand

/-- A filter is written as an object, or as the list of its fields, of which the last ones may
be left out. -/
inductive EventFilter.Written : Form EventFilter where
  | object {fields : Fields} {f : EventFilter}
      (property : Form.text.Required fields "property" f.property)
      (operator : (Form.named PropertyOperator.name).Defaulted fields "operator" (.equals false)
        f.operator)
      (operand : Form.operand.Defaulted fields "value" none f.operand) :
      EventFilter.Written (.object fields) f
  | property (s : String) : EventFilter.Written (.list [.text s]) ⟨s, .equals false, none⟩
  | operator (s : String) {v : Json} {op : PropertyOperator}
      (h : Form.named PropertyOperator.name v op) :
      EventFilter.Written (.list [.text s, v]) ⟨s, op, none⟩
  | operand (s : String) {v w : Json} {op : PropertyOperator} {o : Option Json}
      (h : Form.named PropertyOperator.name v op) (ho : Form.operand w o) :
      EventFilter.Written (.list [.text s, v, w]) ⟨s, op, o⟩

structure EventCondition.Written (fields : Fields) (c : EventCondition) : Prop where
  event : Form.text.Required fields "event_name" c.event
  operator : (Form.named CountOperator.name).Required fields "count_operator" c.operator
  count : Form.word.Required fields "count" c.count
  windowDays : Form.word.Required fields "time_window_days" c.windowDays
  filters : (Form.list EventFilter.Written).Defaulted fields "event_filters" [] c.filters

structure PersonCondition.Written (fields : Fields) (c : PersonCondition) : Prop where
  property : Form.text.Required fields "property" c.property
  operator : (Form.named PropertyOperator.name).Required fields "operator" c.operator
  operand : Form.operand.Defaulted fields "value" none c.operand

structure FirstTimeCondition.Written (fields : Fields) (c : FirstTimeCondition) : Prop where
  event : Form.text.Required fields "event_name" c.event
  windowDays : Form.word.Required fields "time_window_days" c.windowDays

structure RegularCondition.Written (fields : Fields) (c : RegularCondition) : Prop where
  event : Form.text.Required fields "event_name" c.event
  period : (Form.named Period.name).Required fields "period_type" c.period
  totalPeriods : Form.word.Required fields "total_periods" c.totalPeriods
  minPeriods : Form.word.Required fields "min_periods" c.minPeriods
  windowDays : Form.word.Required fields "time_window_days" c.windowDays
  filters : (Form.list EventFilter.Written).Defaulted fields "event_filters" [] c.filters

structure MemberCondition.Written (fields : Fields) (c : MemberCondition) : Prop where
  cohort : Form.text.Required fields "cohort_id" c.cohort
  negated : Form.flag.Defaulted fields "negated" false c.negated

def Leaf.Written (fields : Fields) : Leaf → Prop
  | event c => c.Written fields
  | person c => c.Written fields
  | firstTime c => c.Written fields
  | regular c => c.Written fields
  | member c => c.Written fields

/-- The values that stand for the members of a group. -/
inductive MemberValues (fields : Fields) : List Json → Prop where
  | absent (h : ∀ v, ("members", v) ∉ fields) : MemberValues fields []
  | null (h : ("members", .null) ∈ fields) : MemberValues fields []
  | list {vs : List Json} (h : ("members", .list vs) ∈ fields) : MemberValues fields vs

inductive Tree.Written : Json → Condition → Prop where
  | leaf {fields : Fields} {l : Leaf} (hk : ("kind", .text l.kind) ∈ fields)
      (h : l.Written fields) : Tree.Written (.object fields) (.leaf l)
  | group {fields : Fields} {j : Junction} {word : String} {vs : List Json} {ms : List Condition}
      (hk : ("kind", .text word) ∈ fields) (hj : word ∈ j.words) (hv : MemberValues fields vs)
      (h : List.Forall₂ Tree.Written vs ms) : Tree.Written (.object fields) (.group j ms)

namespace Tree

variable {α : Type}

/-- The number of groups that stand inside one another. -/
def height (t : Tree α) : Nat :=
  t.fold (fun _ => 0) fun _ heights => heights.foldr max 0 + 1

/-- Every group has so many members at most. -/
def Narrow (width : Nat) (t : Tree α) : Prop :=
  t.fold (fun _ => True) fun _ narrow => narrow.length ≤ width ∧ ∀ p ∈ narrow, p

theorem height_group (j : Junction) (ms : List (Tree α)) (n : Nat) :
    (Tree.group j ms).height ≤ n ↔ ∃ k, n = k + 1 ∧ ∀ m ∈ ms, m.height ≤ k := by
  have hm (k : Nat) : (ms.map height).foldr max 0 ≤ k ↔ ∀ m ∈ ms, m.height ≤ k := by
    induction ms with
    | nil => simp
    | cons m ms ih => rw [List.map_cons, List.foldr_cons, Nat.max_le, ih, List.forall_mem_cons]
  have hg : (Tree.group j ms).height = (ms.map height).foldr max 0 + 1 := by
    rw [height, fold_group]
    rfl
  rw [hg]
  simp only [← hm]
  constructor
  · intro h
    exact ⟨n - 1, by omega, by omega⟩
  · rintro ⟨k, rfl, h⟩
    omega

theorem narrow_group (width : Nat) (j : Junction) (ms : List (Tree α)) :
    (Tree.group j ms).Narrow width ↔ ms.length ≤ width ∧ ∀ m ∈ ms, m.Narrow width := by
  rw [Narrow, fold_group, List.length_map, List.forall_mem_map]
  rfl

end Tree

/-- At most ten groups stand inside one another, no group has more than fifty members, and there
are no more than two hundred leaves. -/
structure Definition.Bounded (d : Definition) : Prop where
  height : d.root.height ≤ 10
  width : d.root.Narrow 50
  leaves : d.root.leaves.length ≤ 200

/-- The names of the fields of a leaf that are looked at, but for its filters. -/
def askedNames : String → List String
  | "event" => ["event_name", "count_operator", "count", "time_window_days"]
  | "person_property" => ["property", "operator", "value"]
  | "first_time_event" => ["event_name", "time_window_days"]
  | "performed_regularly" =>
    ["event_name", "period_type", "total_periods", "min_periods", "time_window_days"]
  | "cohort" => ["cohort_id", "negated"]
  | _ => []

/-- Filters that differ in the order of fields and in fields that a filter is not asked for. -/
inductive EventFilter.Alike : Json → Json → Prop where
  | same (v : Json) : EventFilter.Alike v v
  | object {fs gs : Fields}
      (h : ∀ name ∈ ["property", "operator", "value"], Json.get? fs name = Json.get? gs name) :
      EventFilter.Alike (.object fs) (.object gs)

inductive EventFilter.AllAlike : Json → Json → Prop where
  | same (v : Json) : EventFilter.AllAlike v v
  | list {vs ws : List Json} (h : List.Forall₂ EventFilter.Alike vs ws) :
      EventFilter.AllAlike (.list vs) (.list ws)

mutual

/-- Nodes that differ, themselves or in their filters and members, in the order of fields and in
fields that a node of their kind is not asked for. -/
inductive Tree.Alike : Json → Json → Prop where
  | same (v : Json) : Tree.Alike v v
  | leaf {fs gs : Fields} {kind : String} (hf : Json.get? fs "kind" = some (.text kind))
      (hg : Json.get? gs "kind" = some (.text kind)) (hk : ∀ j : Junction, kind ∉ j.words)
      (asked : ∀ name ∈ askedNames kind, Json.get? fs name = Json.get? gs name)
      (filters : kind = "event" ∨ kind = "performed_regularly" →
        Option.Rel EventFilter.AllAlike (Json.get? fs "event_filters")
          (Json.get? gs "event_filters")) : Tree.Alike (.object fs) (.object gs)
  | group {fs gs : Fields} {kind : String} {j : Junction}
      (hf : Json.get? fs "kind" = some (.text kind)) (hg : Json.get? gs "kind" = some (.text kind))
      (hk : kind ∈ j.words) (members : Json.get? fs "members" = Json.get? gs "members") :
      Tree.Alike (.object fs) (.object gs)
  | members {fs gs : Fields} {kind : String} {j : Junction} {vs ws : List Json}
      (hf : Json.get? fs "kind" = some (.text kind)) (hg : Json.get? gs "kind" = some (.text kind))
      (hk : kind ∈ j.words) (hv : Json.get? fs "members" = some (.list vs))
      (hw : Json.get? gs "members" = some (.list ws)) (h : Tree.AllAlike vs ws) :
      Tree.Alike (.object fs) (.object gs)

inductive Tree.AllAlike : List Json → List Json → Prop where
  | nil : Tree.AllAlike [] []
  | cons {v w : Json} {vs ws : List Json} (h : Tree.Alike v w) (ht : Tree.AllAlike vs ws) :
      Tree.AllAlike (v :: vs) (w :: ws)

end

section

variable {fs gs : Fields} (hf : (Json.object fs).Distinct) (hg : (Json.object gs).Distinct)

include hf hg

theorem required_alike {α : Type} {f : Form α} {name : String} {a : α}
    (h : Json.get? fs name = Json.get? gs name) (hr : f.Required fs name a) :
    f.Required gs name a := by
  obtain ⟨v, hv, ha⟩ := hr
  have hv := (Json.get_field (Json.distinct_object.mp hf).1 _ _).mpr hv
  exact ⟨v, (Json.get_field (Json.distinct_object.mp hg).1 _ _).mp (h ▸ hv), ha⟩

theorem defaulted_alike {α : Type} {f : Form α} {name : String} {absent a : α}
    (h : Json.get? fs name = Json.get? gs name) (hd : f.Defaulted fs name absent a) :
    f.Defaulted gs name absent a := by
  rcases hd with hr | ⟨hn, rfl⟩
  · exact .inl (required_alike hf hg h hr)
  · rw [← Json.get_absent, h] at hn
    exact .inr ⟨(Json.get_absent _ _).mp hn, rfl⟩

end

theorem filter_alike {v w : Json} (h : EventFilter.Alike v w) (hv : v.Distinct) (hw : w.Distinct)
    (f : EventFilter) (hf : EventFilter.Written v f) : EventFilter.Written w f := by
  cases h with
  | same => exact hf
  | object h =>
    simp only [List.mem_cons, List.not_mem_nil, or_false, forall_eq_or_imp, forall_eq] at h
    cases hf with
    | object property operator operand =>
      exact .object (required_alike hv hw h.1 property) (defaulted_alike hv hw h.2.1 operator)
        (defaulted_alike hv hw h.2.2 operand)

theorem filters_alike {fs gs : Fields} (hf : (Json.object fs).Distinct)
    (hg : (Json.object gs).Distinct)
    (h : Option.Rel EventFilter.AllAlike (Json.get? fs "event_filters")
      (Json.get? gs "event_filters")) {cs : List EventFilter}
    (hc : (Form.list EventFilter.Written).Defaulted fs "event_filters" [] cs) :
    (Form.list EventFilter.Written).Defaulted gs "event_filters" [] cs := by
  obtain ⟨hu, hd⟩ := Json.distinct_object.mp hf
  obtain ⟨ht, he⟩ := Json.distinct_object.mp hg
  rcases hc with ⟨v, hv, hc⟩ | ⟨hn, rfl⟩
  · have hdv := hd _ hv (by simp)
    rw [(Json.get_field hu _ _).mpr hv] at h
    generalize hw : Json.get? gs "event_filters" = o at h
    cases h with
    | @some _ w h =>
      have hw := (Json.get_field ht _ _).mp hw
      have hdw := he _ hw (by simp)
      refine .inl ⟨w, hw, ?_⟩
      cases h with
      | same => exact hc
      | @list vs ws h =>
        obtain ⟨items, hi, hc⟩ := hc
        obtain rfl := Json.list.inj hi
        have hvs := Json.distinct_list.mp hdv
        have hws := Json.distinct_list.mp hdw
        exact ⟨ws, rfl, Json.forall₂_replace h
          (fun v hv w hw f _ ha => filter_alike ha (hvs v hv) (hws w hw) f) hc⟩
  · rw [(Json.get_absent _ _).mpr hn] at h
    generalize hw : Json.get? gs "event_filters" = o at h
    cases h with
    | none => exact .inr ⟨(Json.get_absent _ _).mp hw, rfl⟩

theorem leaf_alike {fs gs : Fields} (hf : (Json.object fs).Distinct)
    (hg : (Json.object gs).Distinct) {l : Leaf}
    (asked : ∀ name ∈ askedNames l.kind, Json.get? fs name = Json.get? gs name)
    (filters : l.kind = "event" ∨ l.kind = "performed_regularly" →
      Option.Rel EventFilter.AllAlike (Json.get? fs "event_filters")
        (Json.get? gs "event_filters")) (h : l.Written fs) : l.Written gs := by
  cases l with
  | event c =>
    simp only [Leaf.kind, askedNames, List.forall_mem_cons] at asked
    obtain ⟨he, ho, hc, hw, _⟩ := asked
    exact ⟨required_alike hf hg he h.event, required_alike hf hg ho h.operator,
      required_alike hf hg hc h.count, required_alike hf hg hw h.windowDays,
      filters_alike hf hg (filters (.inl rfl)) h.filters⟩
  | person c =>
    simp only [Leaf.kind, askedNames, List.forall_mem_cons] at asked
    obtain ⟨hp, ho, hv, _⟩ := asked
    exact ⟨required_alike hf hg hp h.property, required_alike hf hg ho h.operator,
      defaulted_alike hf hg hv h.operand⟩
  | firstTime c =>
    simp only [Leaf.kind, askedNames, List.forall_mem_cons] at asked
    obtain ⟨he, hw, _⟩ := asked
    exact ⟨required_alike hf hg he h.event, required_alike hf hg hw h.windowDays⟩
  | regular c =>
    simp only [Leaf.kind, askedNames, List.forall_mem_cons] at asked
    obtain ⟨he, hp, ht, hl, hw, _⟩ := asked
    exact ⟨required_alike hf hg he h.event, required_alike hf hg hp h.period,
      required_alike hf hg ht h.totalPeriods, required_alike hf hg hl h.minPeriods,
      required_alike hf hg hw h.windowDays, filters_alike hf hg (filters (.inr rfl)) h.filters⟩
  | member c =>
    simp only [Leaf.kind, askedNames, List.forall_mem_cons] at asked
    obtain ⟨hc, hn, _⟩ := asked
    exact ⟨required_alike hf hg hc h.cohort, defaulted_alike hf hg hn h.negated⟩

theorem member_values {fields : Fields} (hn : (fields.map Prod.fst).Nodup) (vs : List Json) :
    MemberValues fields vs ↔
      (Json.get? fields "members" = none ∨ Json.get? fields "members" = some .null) ∧ vs = [] ∨
        Json.get? fields "members" = some (.list vs) := by
  rw [Json.get_absent, Json.get_field hn, Json.get_field hn]
  constructor
  · intro h
    cases h with
    | absent h => exact .inl ⟨.inl h, rfl⟩
    | null h => exact .inl ⟨.inr h, rfl⟩
    | list h => exact .inr h
  · rintro (⟨h | h, rfl⟩ | h)
    · exact .absent h
    · exact .null h
    · exact .list h

theorem member_values_distinct {fields : Fields} (hd : (Json.object fields).Distinct)
    {vs : List Json} (h : MemberValues fields vs) : ∀ v ∈ vs, v.Distinct := by
  cases h with
  | absent | null => simp
  | list h => exact Json.distinct_list.mp ((Json.distinct_object.mp hd).2 _ h (by simp))

theorem same_kind {fields : Fields} (hn : (fields.map Prod.fst).Nodup) {kind word : String}
    (hk : Json.get? fields "kind" = some (.text kind)) (hw : ("kind", .text word) ∈ fields) :
    kind = word := by
  rw [(Json.get_field hn _ _).mpr hw] at hk
  exact (Json.text.inj (Option.some.inj hk)).symm

theorem all_alike {vs ws : List Json} (h : Tree.AllAlike vs ws) :
    List.Forall₂ Tree.Alike vs ws := by
  induction vs generalizing ws with
  | nil =>
    cases h
    exact .nil
  | cons v vs ih =>
    cases h with
    | cons h ht => exact .cons h (ih ht)

/-- Nodes that differ in what does not matter only are written for the same. -/
theorem tree_alike (c : Condition) : ∀ v w : Json, Tree.Alike v w → v.Distinct → w.Distinct →
    Tree.Written v c → Tree.Written w c := by
  induction c using Tree.induct with
  | leaf l =>
    intro v w h hv hw hc
    cases h with
    | same => exact hc
    | @leaf fs gs kind hf hg _ asked filters =>
      cases hc with
      | leaf hk hl =>
        obtain rfl := same_kind (Json.distinct_object.mp hv).1 hf hk
        exact .leaf ((Json.get_field (Json.distinct_object.mp hw).1 _ _).mp hg)
          (leaf_alike hv hw asked filters hl)
    | group hf _ hj _ | members hf _ hj _ _ _ =>
      cases hc with
      | leaf hk _ =>
        obtain rfl := same_kind (Json.distinct_object.mp hv).1 hf hk
        exact absurd hj (leaf_word l _)
  | group j ms ih =>
    intro v w h hv hw hc
    cases h with
    | same => exact hc
    | leaf hf _ hn _ _ =>
      cases hc with
      | group hk hj _ _ =>
        obtain rfl := same_kind (Json.distinct_object.mp hv).1 hf hk
        exact absurd hj (hn j)
    | group hf hg _ members =>
      have hu := (Json.distinct_object.mp hv).1
      have ht := (Json.distinct_object.mp hw).1
      cases hc with
      | group hk hj hm hs =>
        obtain rfl := same_kind hu hf hk
        rw [member_values hu, members, ← member_values ht] at hm
        exact .group ((Json.get_field ht _ _).mp hg) hj hm hs
    | members hf hg _ hvs hws ha =>
      have hu := (Json.distinct_object.mp hv).1
      have ht := (Json.distinct_object.mp hw).1
      cases hc with
      | group hk hj hm hs =>
        obtain rfl := same_kind hu hf hk
        rw [member_values hu, hvs] at hm
        obtain rfl : _ = _ := by simpa using hm
        have hws := (Json.get_field ht _ _).mp hws
        have hdv := member_values_distinct hv (.list ((Json.get_field hu _ _).mp hvs))
        have hdw := member_values_distinct hw (.list hws)
        exact .group ((Json.get_field ht _ _).mp hg) hj (.list hws)
          (Json.forall₂_replace (all_alike ha)
            (fun v hv w hw c hc h => ih c hc v w h (hdv v hv) (hdw w hw)) hs)

theorem filter_alike_symm {v w : Json} (h : EventFilter.Alike v w) : EventFilter.Alike w v := by
  cases h with
  | same => exact .same v
  | object h => exact .object fun name hn => (h name hn).symm

theorem filters_alike_symm {o p : Option Json} (h : Option.Rel EventFilter.AllAlike o p) :
    Option.Rel EventFilter.AllAlike p o := by
  cases h with
  | none => exact .none
  | some h =>
    cases h with
    | same => exact .some (.same _)
    | list h => exact .some (.list (h.imp fun _ _ => filter_alike_symm).flip)

mutual

theorem alike_symm {v w : Json} (h : Tree.Alike v w) : Tree.Alike w v := by
  match h with
  | .same v => exact .same v
  | .leaf hf hg hk asked filters =>
    exact .leaf hg hf hk (fun name hn => (asked name hn).symm) fun hn =>
      filters_alike_symm (filters hn)
  | .group hf hg hk h => exact .group hg hf hk h.symm
  | .members hf hg hk hv hw h => exact .members hg hf hk hw hv (all_alike_symm h)

theorem all_alike_symm {vs ws : List Json} (h : Tree.AllAlike vs ws) : Tree.AllAlike ws vs := by
  match h with
  | .nil => exact .nil
  | .cons h ht => exact .cons (alike_symm h) (all_alike_symm ht)

end

end CohortQuery
