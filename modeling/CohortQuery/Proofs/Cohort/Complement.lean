import CohortQuery.Proofs.Cohort.Behaviour
import CohortQuery.Proofs.Cohort.Reason
import CohortQuery.Proofs.Sql.Expression

/-!
# Operators and their negations

The value of an expression in a row is worked out as the store does it, where NULL is a value of
its own. What a comparison of a property is compiled to has the value that its test has, and of the
texts for an operator and for its negation exactly one is satisfied by a row, also by one without
the property.
-/

set_option autoImplicit false

namespace CohortQuery

open Binder (Yields)
open Sql (Bag Expression Lookup PropertyTest Truth)
open Store (Engine Event)

def CountOperator.relates : CountOperator → Binary64 → Binary64 → Bool
  | above, x, y => y.less x
  | atLeast, x, y => y.less x || x.equal y
  | below, x, y => x.less y
  | atMost, x, y => x.less y || x.equal y
  | equal, x, y => x.equal y
  | unequal, x, y => !x.equal y

namespace Store

inductive Cell where
  | null
  | text (s : String)
  | number (x : Binary64)
  | truth (b : Bool)
  deriving DecidableEq

namespace Cell

def ofValue? : Value → Option Cell
  | .text s => some (.text s)
  | .real x => some (.number x)
  | .word _ | .integer _ | .uuid _ | .time _ => none

def ofNumber : Option Binary64 → Cell
  | none => .null
  | some x => .number x

def ofTruth : Truth → Cell
  | none => .null
  | some b => .truth b

def orElse : Cell → Cell → Cell
  | null, d => d
  | c, _ => c

/-- A comparison with NULL is NULL. Texts are asked for equality only, and a text and a number
are not compared. -/
def compare (op : CountOperator) : Cell → Cell → Option Cell
  | null, _ | _, null => some null
  | number x, number y => some (truth (op.relates x y))
  | text s, text t =>
    match op with
    | .equal => some (truth (s = t))
    | .unequal => some (truth (s ≠ t))
    | .above | .atLeast | .below | .atMost => none
  | _, _ => none

def like (negated : Bool) : Cell → Cell → Option Cell
  | null, _ | _, null => some null
  | text s, text pattern =>
    some (truth (Text.Like.matchesAll pattern.toList s.toList != negated))
  | _, _ => none

def isNull (negated : Bool) (c : Cell) : Cell :=
  truth (decide (c = null) != negated)

end Cell

def Event.cell? (e : Event) : String → Option Cell
  | "properties" => some (.text e.properties)
  | "person_properties" => some (.text e.personProperties)
  | "1" => some (.truth true)
  | _ => none

/-- The functions that comparisons of a property call. Of all of them only the readings of
numbers and `nullIf` make NULL out of other values. -/
def Engine.apply (E : Engine) : String → List Cell → Option Cell
  | "JSONExtractString", [.text json, .text key] => some (.text (E.text json key))
  | "JSONExtractRaw", [.text json, .text key] => some (.text (E.raw json key))
  | "JSONExtract", [.text json, .text key, .text "Nullable(Float64)"] =>
    some (.ofNumber (E.number json key))
  | "toFloat64OrNull", [.text s] => some (.ofNumber (E.parse s))
  | "coalesce", [c, d] | "ifNull", [c, d] => some (c.orElse d)
  | "nullIf", [c, d] => (c.compare .equal d).map fun r => if r = .truth true then .null else c
  | _, _ => none

end Store

open Store (Cell)

namespace Sql.Expression

section

variable (E : Engine) (params : Params) (e : Event)

mutual

def cell? : Expression → Option Cell
  | name s => e.cell? s
  | text s => some (.text s)
  | value p => params.read Cell.ofValue? p
  | call function es => (cells? es).bind (E.apply function)
  | compare op x y => do (← cell? x).compare op (← cell? y)
  | like negated x y => do (← cell? x).like negated (← cell? y)
  | isNull negated x => (cell? x).map (Cell.isNull negated)

def cells? : List Expression → Option (List Cell)
  | [] => some []
  | x :: xs => do return (← cell? x) :: (← cells? xs)

end

/-- The row satisfies the expression as a condition, which it does not where that is NULL. -/
def Satisfied (x : Expression) : Prop :=
  x.cell? E params e = some (.truth true)

end

end Sql.Expression

section

variable {E : Engine} {params : Params} {e : Event} {l : Lookup}

theorem bag_cell : (Expression.name l.bag.column).cell? E params e =
    some (.text (e.bag l.bag)) := by
  cases l.bag <;> rfl

theorem literal_cell (s : String) : (Expression.text s).cell? E params e = some (.text s) :=
  rfl

theorem cells_read {es : List Expression} {cs : List Cell}
    (h : List.Forall₂ (fun x c => Expression.cell? E params e x = some c) es cs) :
    Expression.cells? E params e es = some cs := by
  induction h with
  | nil => rfl
  | cons hx _ ih =>
    rw [Expression.cells?, hx, ih]
    rfl

theorem call_cell (function : String) {es : List Expression} {cs : List Cell}
    (h : List.Forall₂ (fun x c => Expression.cell? E params e x = some c) es cs) :
    (Expression.call function es).cell? E params e = E.apply function cs :=
  congrArg (Option.bind · (E.apply function)) (cells_read h)

theorem text_cell : l.textExpression.cell? E params e =
    some (.text (E.text (e.bag l.bag) l.key.text)) :=
  call_cell "JSONExtractString" (.cons bag_cell (.cons (literal_cell _) .nil))

theorem raw_cell : l.rawExpression.cell? E params e =
    some (.text (E.raw (e.bag l.bag) l.key.text)) :=
  call_cell "JSONExtractRaw" (.cons bag_cell (.cons (literal_cell _) .nil))

theorem number_cell : l.numberExpression.cell? E params e =
    some (.ofNumber (E.numeric (e.bag l.bag) l.key.text)) := by
  -- The second reading counts only where the first one is NULL.
  have hc : (Cell.ofNumber (E.number (e.bag l.bag) l.key.text)).orElse
      (.ofNumber (E.parse (E.text (e.bag l.bag) l.key.text))) =
        .ofNumber (E.numeric (e.bag l.bag) l.key.text) := by
    unfold Engine.numeric
    cases E.number (e.bag l.bag) l.key.text <;> rfl
  have own : (Expression.call "JSONExtract" [.name l.bag.column, .text l.key.text,
      .text "Nullable(Float64)"]).cell? E params e = some (.ofNumber (E.number _ _)) :=
    call_cell _ (.cons bag_cell (.cons (literal_cell _) (.cons (literal_cell _) .nil)))
  have parsed : (Expression.call "toFloat64OrNull" [l.textExpression]).cell? E params e =
      some (.ofNumber (E.parse _)) := call_cell _ (.cons text_cell .nil)
  exact (call_cell "coalesce" (.cons own (.cons parsed .nil))).trans (congrArg some hc)

theorem operand_cell {n : Nat} {v : Value}
    (hp : params.Has (Bindings.numbered n [("coh_prop", v)])) :
    (Expression.value (place "coh_prop" n v.type)).cell? E params e = Cell.ofValue? v :=
  place_read hp Cell.ofValue?

theorem compare_cell (op : CountOperator) {x y : Expression} {c d : Cell}
    (hx : x.cell? E params e = some c) (hy : y.cell? E params e = some d) :
    (Expression.compare op x y).cell? E params e = c.compare op d := by
  rw [Expression.cell?, hx, hy]
  rfl

theorem equality_cell (negated : Bool) {x y : Expression} {s t : String}
    (hx : x.cell? E params e = some (.text s)) (hy : y.cell? E params e = some (.text t)) :
    (Expression.compare (Sql.equalityOf negated) x y).cell? E params e =
      some (.truth (decide (s = t) != negated)) := by
  rw [compare_cell _ hx hy]
  cases negated <;> simp [Sql.equalityOf, Cell.compare]

theorem numeric_cell (op : CountOperator) {y : Expression} {x : Binary64}
    (hy : y.cell? E params e = some (.number x)) :
    (Expression.compare op l.numberExpression y).cell? E params e =
      some (.ofTruth ((E.numeric (e.bag l.bag) l.key.text).map fun z => op.relates z x)) := by
  rw [compare_cell op number_cell hy]
  cases E.numeric (e.bag l.bag) l.key.text <;> rfl

theorem if_null_cell {x : Expression} {t : Truth}
    (hx : x.cell? E params e = some (.ofTruth t)) :
    (Expression.call "ifNull" [x, .name "1"]).cell? E params e =
      some (.truth (t.getD true)) := by
  have one : (Expression.name "1").cell? E params e = some (.truth true) := rfl
  refine (call_cell "ifNull" (.cons hx (.cons one .nil))).trans ?_
  cases t <;> rfl

theorem presence_cell (negated : Bool) :
    ((PropertyTest.isSet negated).expression l).cell? E params e =
      some (.truth (decide (E.raw (e.bag l.bag) l.key.text ≠ "") != negated)) := by
  have hn : (Expression.call "nullIf" [l.rawExpression, .text ""]).cell? E params e =
      some (if E.raw (e.bag l.bag) l.key.text = "" then .null
        else .text (E.raw (e.bag l.bag) l.key.text)) := by
    refine (call_cell "nullIf" (.cons raw_cell (.cons (literal_cell "") .nil))).trans ?_
    change some (if Cell.truth (decide (_ = "")) = .truth true then Cell.null else _) = _
    simp only [Cell.truth.injEq, decide_eq_true_eq]
  rw [PropertyTest.expression, Expression.cell?, hn]
  by_cases hs : E.raw (e.bag l.bag) l.key.text = "" <;> cases negated <;> simp [hs, Cell.isNull]

theorem order_relates (order : Order) (x y : Binary64) :
    (Sql.comparisonOf order).relates x y = order.holds x y := by
  cases order <;> rfl

theorem test_cell {property : String} {operand : Option Json} {n : Nat} {op : PropertyOperator}
    {t : PropertyTest} {vs : Literals} (h : TestLowers property operand n op t vs)
    (hp : params.Has (Bindings.numbered n vs)) : (t.expression l).cell? E params e =
      some (.ofTruth (t.truth E params (e.bag l.bag) l.key.text)) := by
  cases h with
  | @text s negated _ =>
    have hr : params.read Value.text? (place "coh_prop" n .text) = some s := place_read hp _
    rw [PropertyTest.truth, hr]
    exact equality_cell negated text_cell (operand_cell hp)
  | @flag b negated _ =>
    have hr : params.read Value.text? (place "coh_prop" n .text) = some (flagText b) :=
      place_read hp _
    rw [PropertyTest.truth, hr]
    exact equality_cell negated raw_cell (operand_cell hp)
  | @number x negated _ =>
    have hr : params.read Value.real? (place "coh_prop" n .real) = some x := place_read hp _
    have hc (op : CountOperator) := numeric_cell (l := l) (E := E) (e := e) op (operand_cell hp)
    rw [PropertyTest.truth, hr, Option.bind_some]
    cases negated with
    | false =>
      refine (hc .equal).trans ?_
      cases E.numeric (e.bag l.bag) l.key.text <;> simp [CountOperator.relates]
    | true =>
      refine (if_null_cell (hc .unequal)).trans ?_
      cases E.numeric (e.bag l.bag) l.key.text <;> simp [CountOperator.relates, Cell.ofTruth]
  | @ordered x order _ =>
    have hr : params.read Value.real? (place "coh_prop" n .real) = some x := place_read hp _
    have hc := numeric_cell (l := l) (E := E) (e := e) (Sql.comparisonOf order) (operand_cell hp)
    simp only [order_relates] at hc
    rw [PropertyTest.truth, hr]
    exact hc
  | @like s negated _ _ =>
    have hr : params.read Value.text? (place "coh_prop" n .text) =
        some (Text.Like.containing s.toText) := place_read hp _
    have hv : (Expression.value (place "coh_prop" n .text)).cell? E params e =
        some (.text (Text.Like.containing s.toText)) := operand_cell hp
    rw [PropertyTest.truth, hr, PropertyTest.expression, Expression.cell?, text_cell, hv]
    rfl
  | isSet negated => exact presence_cell negated

theorem satisfied_holds {property : String} {operand : Option Json} {n : Nat}
    {op : PropertyOperator} {t : PropertyTest} {vs : Literals}
    (h : TestLowers property operand n op t vs) (hp : params.Has (Bindings.numbered n vs))
    (hk : l.key.text = property) : (t.expression l).Satisfied E params e ↔
      op.holds E (e.bag l.bag) property operand = true := by
  subst hk
  rw [← test_truth h hp, Expression.Satisfied, test_cell h hp, Option.some.injEq]
  generalize t.truth E params (e.bag l.bag) l.key.text = r
  rcases r with _ | r <;> simp [Cell.ofTruth]

end

def negatable : List (Bool → PropertyOperator) :=
  [.equals, .contains, .isSet]

theorem reason_alike {op : Bool → PropertyOperator} (h : op ∈ negatable) (negated : Bool)
    (allowed : AllowList) (property : String) (operand : Option Json) :
    propertyReason? allowed property (op negated) operand =
      propertyReason? allowed property (op false) operand := by
  simp only [negatable, List.mem_cons, List.not_mem_nil, or_false] at h
  rcases h with rfl | rfl | rfl <;> rfl

theorem lowers_negated {op : Bool → PropertyOperator} (h : op ∈ negatable) {property : String}
    {operand : Option Json} {n : Nat} {t : PropertyTest} {vs : Literals}
    (ht : TestLowers property operand n (op false) t vs) :
    ∃ u, TestLowers property operand n (op true) u vs := by
  simp only [negatable, List.mem_cons, List.not_mem_nil, or_false] at h
  rcases h with rfl | rfl | rfl
  · cases ht with
    | text _ hs => exact ⟨_, .text true hs⟩
    | number _ hs => exact ⟨_, .number true hs⟩
    | flag _ hs => exact ⟨_, .flag true hs⟩
  · cases ht with
    | like _ hs he => exact ⟨_, .like true hs he⟩
  · cases ht with
    | isSet _ => exact ⟨_, .isSet true⟩

/-- With an operand that is accepted, exactly one of the two operators says what is so. -/
theorem holds_negated {op : Bool → PropertyOperator} (h : op ∈ negatable) {property : String}
    {operand : Option Json} {n : Nat} {t : PropertyTest} {vs : Literals}
    (ht : TestLowers property operand n (op false) t vs) (E : Engine) (json : String) :
    (op true).holds E json property operand = !(op false).holds E json property operand := by
  simp only [negatable, List.mem_cons, List.not_mem_nil, or_false] at h
  rcases h with rfl | rfl | rfl
  · cases ht with
    | text _ hs | number _ hs | flag _ hs => simp [PropertyOperator.holds, hs]
  · cases ht with
    | like _ hs _ => simp [PropertyOperator.holds, hs]
  · simp [PropertyOperator.holds]

/-- An operator and its negation are refused alike, or compiled with the same bindings; and then
the two texts have a truth value or NULL in every row, and every row satisfies exactly one. -/
theorem negation_complements {op : Bool → PropertyOperator} (h : op ∈ negatable)
    (allowed : AllowList) (bag : Bag) (property : String) (operand : Option Json) (b : Bindings) :
    (∃ e, ∀ negated,
      ((compileProperty allowed bag property (op negated) operand).outcome b).1 = .error e) ∨
    ∃ (l : Lookup) (t : Bool → PropertyTest) (c : Bindings) (x : Bool → Expression),
      (∀ negated, (compileProperty allowed bag property (op negated) operand).Yields b
        (l, t negated) c ∧ Expression.read ((t negated).render l) = some (x negated)) ∧
      ∀ (E : Engine) (params : Params), params.Extends c.params → ∀ e : Event,
        (∀ negated, ∃ r, (x negated).cell? E params e = some (.ofTruth r)) ∧
        ((x true).Satisfied E params e ↔ ¬ (x false).Satisfied E params e) := by
  cases hr : propertyReason? allowed property (op false) operand with
  | some d =>
    left
    refine ⟨d, fun negated => ?_⟩
    rw [← Except.reason_some, property_refuses, reason_alike h, hr]
  | none =>
    right
    obtain ⟨lt, c, hy⟩ := (Binder.yields_some _ b).mpr
      ((property_refuses allowed bag property (op false) operand b).trans hr)
    obtain ⟨key, t, vs, hk, ht, rfl, rfl⟩ := (yields_property _ _ _ _ _ _ _ _).mp hy
    obtain ⟨u, hu⟩ := lowers_negated h ht
    have hc := check_text hk
    have hv (negated : Bool) :
        TestLowers property operand b.counter (op negated) (bif negated then u else t) vs := by
      cases negated with
      | false => exact ht
      | true => exact hu
    refine ⟨⟨bag, key⟩, (bif · then u else t), b.bindAll vs,
      fun negated => (bif negated then u else t).expression ⟨bag, key⟩, fun negated => ?_, ?_⟩
    · constructor
      · exact (yields_property _ _ _ _ _ _ _ _).mpr ⟨key, _, vs, hk, hv negated, rfl, rfl⟩
      · exact Sql.expression_read _ _ (test_proper (hv negated))
    · intro E params hx e
      have hp := extends_has hx
      constructor
      · exact fun negated => ⟨_, test_cell (hv negated) hp⟩
      · rw [satisfied_holds (hv true) hp hc, satisfied_holds (hv false) hp hc, holds_negated h ht]
        simp

theorem ages_complement : PropertyOperator.equals ∈ negatable ∧
    ∃ (l : Lookup) (t : Bool → PropertyTest) (c : Bindings) (x : Bool → Expression),
      (∀ negated, (compileProperty (.ofNames ["age"]) .person "age" (.equals negated)
        (some (.number (.integer 3)))).Yields ⟨[], 0, none⟩ (l, t negated) c ∧
          Expression.read ((t negated).render l) = some (x negated)) ∧
      (x true).Satisfied noonEngine c.params ⟨"p", "login", "track", "ann", "", "", 0⟩ ∧
      ¬ (x false).Satisfied noonEngine c.params ⟨"p", "login", "track", "ann", "", "", 0⟩ := by
  have hop : PropertyOperator.equals ∈ negatable := List.mem_cons_self
  obtain ⟨e, he⟩ | ⟨l, t, c, x, hy, hs⟩ := negation_complements hop (.ofNames ["age"]) .person "age"
    (some (.number (.integer 3))) ⟨[], 0, none⟩
  · cases he false
  · have hn : ¬ (x false).Satisfied noonEngine c.params
        ⟨"p", "login", "track", "ann", "", "", 0⟩ := by
      obtain ⟨hf, hr⟩ := hy false
      generalize t false = u at hf hr
      cases hf
      have hp : (place "coh_prop" 0 .real).Proper := place_proper "coh_prop" 0 .real (by decide)
      have he := (Sql.expression_read _ (.number false _) hp).symm.trans hr
      rw [← Option.some.inj he]
      intro h
      cases h
    refine ⟨hop, l, t, c, x, hy, (hs noonEngine c.params (fun _ _ h => h) _).2.mpr hn, hn⟩

end CohortQuery
