import CohortQuery.Proofs.Closed

/-!
# The literals of a definition

Which values the leaves of a tree hold, from left to right, is said without the compiler. A
compiled tree binds these values and no others, each under the number of its place.
-/

set_option autoImplicit false

namespace CohortQuery

open Sql (Fragment Moment Predicate PropertyTest RowTest)

/-- The number that a value is, or that its text spells. -/
def Json.spelled? : Json → Option Binary64
  | .number (.integer i) => some (.ofInt i)
  | .number (.real x) => some x
  | .text s => Decimal.readNumber (Text.trimChars s.toList)
  | _ => none

/-- The text of a value that is neither missing nor composed. -/
def Json.plain? : Json → Option String
  | .text s => some s
  | .number (.integer i) => some (Binary64.ofInt i).plain
  | .number (.real x) => some x.plain
  | .bool b => some (flagText b)
  | _ => none

/-- The value that an equality compares with. -/
def Json.operand? : Json → Option Value
  | .text s => some (.text s)
  | .number (.integer i) => some (.real (.ofInt i))
  | .number (.real x) => some (.real x)
  | .bool b => some (.text (flagText b))
  | _ => none

def PropertyOperator.value? : PropertyOperator → Option Json → Option Value
  | .equals _, operand => operand.bind Json.operand?
  | .ordered _, operand => (operand.bind Json.spelled?).map .real
  | .contains _, operand =>
    (operand.bind Json.plain?).map fun s => .text (Text.Like.containing s)
  | .isSet _, _ => none

def comparisonLiterals (op : PropertyOperator) (operand : Option Json) : Literals :=
  (op.value? operand).toList.map fun v => ("coh_prop", v)

def EventFilter.literals (f : EventFilter) : Literals :=
  comparisonLiterals f.operator f.operand

/-- The total of periods is not among the literals of its leaf. -/
def Leaf.literals : Leaf → Literals
  | .event c =>
    windowLiterals c.event c.windowDays ++ c.filters.flatMap EventFilter.literals ++
      [("coh_count", .word c.count)]
  | .person c => comparisonLiterals c.operator c.operand
  | .firstTime c => windowLiterals c.event c.windowDays
  | .regular c =>
    windowLiterals c.event c.windowDays ++ c.filters.flatMap EventFilter.literals ++
      [("coh_min", .word c.minPeriods)]
  | .member c => [("coh_cohort", .text c.cohort)]

def conditionLiterals (c : Condition) : Literals :=
  c.leaves.flatMap Leaf.literals

def Scalar.value : Scalar → Value
  | text s => .text s
  | number x => .real x
  | flag b => .text (flagText b)

theorem scalar_value {property : String} {operand : Option Json} {s : Scalar}
    (h : Scalar.ofOperand property operand = .ok s) :
    operand.bind Json.operand? = some s.value ∧ operand.bind Json.plain? = some s.toText := by
  unfold Scalar.ofOperand at h
  split at h
  · obtain rfl := Except.ok.inj h
    exact ⟨rfl, rfl⟩
  · obtain rfl := Except.ok.inj h
    exact ⟨rfl, rfl⟩
  · split at h
    · obtain rfl := Except.ok.inj h
      exact ⟨rfl, rfl⟩
    · cases h
  · obtain rfl := Except.ok.inj h
    exact ⟨rfl, rfl⟩
  all_goals cases h

theorem number_value {property : String} {operand : Option Json} {x : Binary64}
    (h : numberOperand property operand = .ok x) : operand.bind Json.spelled? = some x := by
  have hs : numberOperand property operand =
      (operand.bind Json.spelled?).elim (.error (.invalidValue property .notANumber)) fun x =>
        if x.isFinite then .ok x else .error (.invalidValue property .notANumber) := by
    cases operand with
    | none => rfl
    | some v =>
      cases v with
      | number n => cases n <;> rfl
      | text s =>
        unfold numberOperand
        cases hr : Decimal.readNumber (Text.trimChars s.toList) <;> simp [Json.spelled?, hr]
      | _ => rfl
  rw [hs] at h
  cases hy : operand.bind Json.spelled? with
  | none =>
    rw [hy] at h
    cases h
  | some y =>
    rw [hy, Option.elim_some] at h
    split at h
    · rw [Except.ok.inj h]
    · cases h

theorem test_literals {property : String} {operand : Option Json} {n : Nat}
    {op : PropertyOperator} {t : PropertyTest} {vs : Literals}
    (h : TestLowers property operand n op t vs) : vs = comparisonLiterals op operand := by
  cases h with
  | text negated h | number negated h | flag negated h =>
    rw [comparisonLiterals, PropertyOperator.value?, (scalar_value h).1]
    rfl
  | ordered order h =>
    rw [comparisonLiterals, PropertyOperator.value?, number_value h]
    rfl
  | like negated h =>
    rw [comparisonLiterals, PropertyOperator.value?, (scalar_value h).2]
    rfl
  | isSet negated => rfl

section

variable {allowed : AllowList} {stop : Moment} {n : Nat}

theorem filters_literals {fs : List EventFilter} {ts : List RowTest} {vs : Literals}
    (h : FiltersLower allowed n fs ts vs) : vs = fs.flatMap EventFilter.literals := by
  induction h with
  | nil => rfl
  | cons _ ht _ ih => rw [List.flatMap_cons, ← ih, test_literals ht, EventFilter.literals]

theorem leaf_literals {l : Leaf} {f : Fragment} {vs : Literals}
    (h : LeafLowers allowed stop n l f vs) : vs = l.literals := by
  cases h with
  | event _ _ _ hf | regular _ _ _ hf => rw [filters_literals hf, Leaf.literals]
  | person _ ht => exact test_literals ht
  | firstTime | member => rfl

end

section

variable {allowed : AllowList} {stop : Moment}

mutual

theorem node_literals {room n : Nat} {m : Condition} {p : Predicate} {vs : Literals}
    (h : NodeLowers allowed stop room n m p vs) : vs = conditionLiterals m := by
  cases h with
  | @leaf _ _ l _ _ h =>
    rw [leaf_literals h]
    exact (List.append_nil l.literals).symm
  | @group _ _ j ms _ _ h =>
    rw [conditionLiterals, Tree.leaves_group, List.flatMap_assoc]
    exact members_literals h

theorem members_literals {room n : Nat} {ms : List Condition} {ps : List Predicate}
    {vs : Literals} (h : MembersLower allowed stop room n ms ps vs) :
    vs = ms.flatMap conditionLiterals := by
  cases h with
  | nil => rfl
  | cons h hr => rw [List.flatMap_cons, ← node_literals h, ← members_literals hr]

end

end

/-- The stem and the number of a numbered name. -/
def Bindings.numberOf? (name : String) : Option (String × Nat) :=
  let digits := name.toList.reverse.takeWhile Char.isDigit
  match name.toList.reverse.dropWhile Char.isDigit with
  | '_' :: stem =>
    if digits.isEmpty then none
    else some (String.ofList stem.reverse, Nat.ofDigitChars 10 digits.reverse 0)
  | _ => none

namespace Params

def numberEntry (e : String × Value) : Option ((String × Value) × Nat) :=
  (Bindings.numberOf? e.1).map fun p => ((p.1, e.2), p.2)

def numberedOf (params : Params) : List ((String × Value) × Nat) :=
  params.filterMap numberEntry

/-- The values under numbered names with their stems, in the order of the numbers. -/
def stream (params : Params) : List ((String × Value) × Nat) :=
  params.numberedOf.mergeSort fun x y => x.2 ≤ y.2

end Params

theorem number_fresh (stem : String) (n : Nat) :
    Bindings.numberOf? (Bindings.freshName stem n) = some (stem, n) := by
  have hd : (Bindings.freshName stem n).toList.reverse.dropWhile Char.isDigit =
      '_' :: stem.toList.reverse := by
    have hs := List.takeWhile_append_dropWhile (p := Char.isDigit)
      (l := (Bindings.freshName stem n).toList.reverse)
    rw [Bindings.fresh_name_digits] at hs
    have hc : (Bindings.freshName stem n).toList.reverse =
        (Nat.toDigits 10 n).reverse ++ '_' :: stem.toList.reverse := by
      rw [Bindings.fresh_name_chars, List.reverse_append, List.reverse_cons, List.append_assoc]
      rfl
    exact List.append_cancel_left (hs.trans hc)
  simp [Bindings.numberOf?, Bindings.fresh_name_digits, hd, Nat.toDigits_ne_nil]

theorem numbered_numbers (n : Nat) (vs : Literals) :
    Params.numberedOf (Bindings.numbered n vs) = vs.zipIdx n := by
  induction vs generalizing n with
  | nil => rfl
  | cons v vs ih =>
    rw [List.zipIdx_cons, ← ih]
    exact List.filterMap_cons_some (by simp [Params.numberEntry, number_fresh])

theorem set_perm (params : Params) {name : String} (v : Value)
    (h : name ∉ params.map Prod.fst) : (params.set name v).Perm ((name, v) :: params) := by
  induction params with
  | nil => exact .refl _
  | cons e params ih =>
    obtain ⟨k, w⟩ := e
    rw [List.map_cons, List.mem_cons, not_or] at h
    rw [Params.set, if_neg h.1]
    split
    · exact .refl _
    · exact ((ih h.2).cons _).trans (.swap _ _ _)

theorem set_all_perm (params entries : Params)
    (h : (entries.map Prod.fst ++ params.map Prod.fst).Nodup) :
    (params.setAll entries).Perm (entries ++ params) := by
  induction entries generalizing params with
  | nil => exact .refl _
  | cons e entries ih =>
    obtain ⟨name, v⟩ := e
    rw [List.map_cons, List.cons_append, List.nodup_cons, List.mem_append, not_or] at h
    have hs := set_perm params v h.1.2
    have hn : (entries.map Prod.fst ++ (params.set name v).map Prod.fst).Nodup := by
      refine ((((hs.map Prod.fst).append_left _).nodup_iff)).mpr ?_
      exact List.perm_middle.nodup_iff.mpr (List.nodup_cons.mpr ⟨by simpa using h.1, h.2⟩)
    exact ((ih _ hn).trans (hs.append_left _)).trans List.perm_middle

/-- The parameters have different names, and none of these is numbered. -/
structure Params.Unnumbered (params : Params) : Prop where
  names : ∀ name ∈ params.map Prod.fst, Bindings.numberOf? name = none
  distinct : (params.map Prod.fst).Nodup

theorem start_names {projectId : String} {dateTo : Option String} {b : Bindings}
    (h : Bindings.start projectId dateTo = .ok b) :
    b.params.map Prod.fst = [Bindings.projectName] ∨
      b.params.map Prod.fst = [Bindings.dateToName, Bindings.projectName] := by
  obtain ⟨u, _, ⟨-, rfl⟩ | ⟨_, t, -, -, rfl⟩⟩ := (start_ok _ _ _).mp h
  · exact .inl rfl
  · exact .inr rfl

theorem start_unnumbered {projectId : String} {dateTo : Option String} {b : Bindings}
    (h : Bindings.start projectId dateTo = .ok b) : b.params.Unnumbered := by
  rcases start_names h with hn | hn
  · exact ⟨by rw [hn]; decide, by rw [hn]; decide⟩
  · exact ⟨by rw [hn]; decide, by rw [hn]; decide⟩

theorem unnumbered_none {params : Params} (h : params.Unnumbered) : params.numberedOf = [] := by
  refine List.filterMap_eq_nil_iff.mpr fun e he => ?_
  rw [Params.numberEntry, h.names e.1 (List.mem_map_of_mem he)]
  rfl

theorem numbered_set_all {params : Params} (h : params.Unnumbered) (vs : Literals) :
    (params.setAll (Bindings.numbered 0 vs)).numberedOf.Perm vs.zipIdx := by
  have hd : ∀ k ∈ (Bindings.numbered 0 vs).map Prod.fst, ∀ name ∈ params.map Prod.fst,
      k ≠ name := by
    rintro k hk _ hp rfl
    obtain ⟨stem, n, _, rfl⟩ := Bindings.numbered_number hk
    have hn := h.names _ hp
    rw [number_fresh] at hn
    cases hn
  have hp := set_all_perm params (Bindings.numbered 0 vs)
    (List.nodup_append.mpr ⟨Bindings.numbered_nodup 0 vs, h.distinct, hd⟩)
  have hf := hp.filterMap Params.numberEntry
  rw [List.filterMap_append] at hf
  change (Params.numberedOf _).Perm (Params.numberedOf _ ++ Params.numberedOf _) at hf
  rwa [unnumbered_none h, List.append_nil, numbered_numbers] at hf

/-- Sorting restores the order in which the values were bound. -/
theorem stream_set_all {params : Params} (h : params.Unnumbered) (vs : Literals) :
    (params.setAll (Bindings.numbered 0 vs)).stream = vs.zipIdx := by
  let sooner (x y : (String × Value) × Nat) : Bool := x.2 ≤ y.2
  let bound := (params.setAll (Bindings.numbered 0 vs)).numberedOf
  have hp : (bound.mergeSort sooner).Perm vs.zipIdx :=
    (List.mergeSort_perm bound sooner).trans (numbered_set_all h vs)
  have hm : (bound.mergeSort sooner).Pairwise fun x y => sooner x y = true := by
    refine List.pairwise_mergeSort (fun x y z hx hy => ?_) (fun x y => ?_) bound
    · exact decide_eq_true ((of_decide_eq_true hx).trans (of_decide_eq_true hy))
    · simpa [sooner] using Nat.le_total x.2 y.2
  have hs : (vs.zipIdx).Pairwise fun x y => x.2 ≤ y.2 := by
    have hr : ((vs.zipIdx).map Prod.snd).Pairwise (· < ·) := by
      rw [List.zipIdx_map_snd]
      exact List.pairwise_lt_range' 1
    exact (List.pairwise_map.mp hr).imp Nat.le_of_lt
  refine List.Perm.eq_of_pairwise ?_ (hm.imp of_decide_eq_true) hs hp
  rintro ⟨u, m⟩ ⟨v, n⟩ hu hv hm hn
  obtain rfl : m = n := Nat.le_antisymm hm hn
  have hu := List.mem_zipIdx_iff_getElem?.mp (hp.mem_iff.mp hu)
  have hv := List.mem_zipIdx_iff_getElem?.mp hv
  obtain rfl : u = v := Option.some.inj (hu.symm.trans hv)
  rfl

def mixedDefinition : Definition where
  junction := .or
  members := [
    .leaf (.event ⟨"purchase", .atLeast, 2, 30,
      [.equal "plan" "pro", ⟨"price", .ordered .above, some (.int 10)⟩,
        ⟨"coupon", .isSet false, none⟩]⟩),
    .group .and [
      .leaf (.firstTime ⟨"signup", 7⟩),
      .leaf (.person ⟨"email", .contains true, some (.text "50%")⟩),
      .leaf (.regular ⟨"login", .week, 6, 4, 45, [⟨"trial", .equals true, some (.bool true)⟩]⟩),
      .leaf (.member ⟨" staff ", true⟩)]]

def mixedAllowed : AllowList :=
  .ofNames ["plan", "price", "coupon", "email", "trial"]

def mixedLiterals : Literals :=
  [("coh_event", .text "purchase"), ("coh_window", .word 30), ("coh_prop", .text "pro"),
    ("coh_prop", .real (.ofInt 10)), ("coh_count", .word 2), ("coh_event", .text "signup"),
    ("coh_window", .word 7), ("coh_prop", .text "%50\\%%"), ("coh_event", .text "login"),
    ("coh_window", .word 45), ("coh_prop", .text "true"), ("coh_min", .word 4),
    ("coh_cohort", .text " staff ")]

theorem mixed_literals : conditionLiterals mixedDefinition.root = mixedLiterals := by
  have hp : "%50\\%%" = Text.Like.containing "50%" := by decide
  rw [mixedLiterals, hp]
  rfl

theorem mixed_lowers (stop : Moment) :
    ∃ p vs, NodeLowers mixedAllowed stop Limits.depth 0 mixedDefinition.root p vs :=
  ⟨_, _, .group .or (.cons
    (.leaf (.event rfl rfl rfl (.cons rfl (.text _ rfl) (.cons rfl (.ordered _ rfl)
      (.cons rfl (.isSet _) (.nil _))))))
    (.cons (.group .and (.cons
      (.leaf (.firstTime rfl rfl)) (.cons
      (.leaf (.person rfl (.like _ rfl rfl))) (.cons
      (.leaf (.regular (by decide) rfl rfl (.cons rfl (.flag _ rfl) (.nil _)))) (.cons
      (.leaf (.member rfl)) (.nil _ _)))))) (.nil _ _)))⟩

theorem mixed_compiles {b : Bindings} (hb : b.counter = 0) :
    ∃ p d, (mixedDefinition.compile mixedAllowed).Yields b p d := by
  obtain ⟨p, vs, h⟩ := mixed_lowers b.stop
  rw [← hb] at h
  exact ⟨p, _, (yields_node _ _ _ b _ p).mpr ⟨vs, h, rfl⟩⟩

/-- A tree that is compiled in a new statement binds its literals, numbered from zero in the
order of its leaves, and nothing else under a numbered name. -/
theorem literals_in_order (projectId : String) (dateTo : Option String) (b : Bindings)
    (hb : Bindings.start projectId dateTo = .ok b) (allowed : AllowList) (c : Condition)
    (p : Predicate) (d : Bindings) (h : (c.compile allowed).Yields b p d) :
    d.params.stream = (conditionLiterals c).zipIdx ∧
      d.counter = (conditionLiterals c).length := by
  obtain ⟨vs, hl, rfl⟩ := (yields_node allowed Limits.depth c b d p).mp h
  have hc := (started hb).counter
  rw [← node_literals hl, Bindings.bind_all_params, Bindings.bind_all_counter, hc]
  exact ⟨stream_set_all (start_unnumbered hb) vs, Nat.zero_add _⟩

theorem mixed_in_order : ∃ b p d,
    Bindings.start "6f1c2b8e-3d4a-4e5f-8a9b-0c1d2e3f4a5b" (some "2025-03-01") = .ok b ∧
    (mixedDefinition.root.compile mixedAllowed).Yields b p d ∧
    d.params.stream = mixedLiterals.zipIdx ∧ d.counter = 13 := by
  obtain ⟨b, _, hb, _⟩ := regulars_listed
  obtain ⟨p, d, hy⟩ := mixed_compiles (started hb).counter
  obtain ⟨hs, hn⟩ := literals_in_order _ _ b hb mixedAllowed mixedDefinition.root p d hy
  rw [mixed_literals] at hs hn
  exact ⟨b, p, d, hb, hy, hs, hn⟩

end CohortQuery
