import CohortQuery.Decimal.Numeral
import CohortQuery.Property.AllowList
import CohortQuery.Sql.Predicate
import CohortQuery.Text.Like

/-!
# Comparing a property with an operand

The type of the operand decides how the property is read. Negated comparisons hold also
of a property that is missing.
-/

set_option autoImplicit false

namespace CohortQuery

open Sql (Bag Lookup PropertyTest)

inductive Scalar where
  | text (s : String)
  | number (x : Binary64)
  | flag (b : Bool)

def flagText (b : Bool) : String :=
  if b then "true" else "false"

namespace Scalar

def ofOperand (property : String) : Option Json → Except CompileError Scalar
  | some (.text s) => .ok (.text s)
  | some (.number (.integer i)) => .ok (.number (.ofInt i))
  | some (.number (.real x)) =>
    if x.isFinite then .ok (.number x) else .error (.invalidValue property .notFinite)
  | some (.bool b) => .ok (.flag b)
  | some .null | none => .error (.invalidValue property .absent)
  | some (.list _) | some (.object _) => .error (.invalidValue property .notScalar)

def toText : Scalar → String
  | text s => s
  | number x => x.plain
  | flag b => flagText b

end Scalar

/-- The number that an operand is or spells. -/
def numberOperand (property : String) (operand : Option Json) :
    Except CompileError Binary64 :=
  let number : Option Binary64 := match operand with
    | some (.number (.integer i)) => some (.ofInt i)
    | some (.number (.real x)) => some x
    | some (.text s) => Decimal.readNumber (Text.trimChars s.toList)
    | _ => none
  match number with
  | some x => if x.isFinite then .ok x else .error (.invalidValue property .notANumber)
  | none => .error (.invalidValue property .notANumber)

def bindOperand (v : Value) : Binder Placeholder :=
  Binder.fresh "coh_prop" v

def compileTest (property : String) (operator : PropertyOperator) (operand : Option Json) :
    Binder PropertyTest :=
  match operator with
  | .equals negated => do
    match ← Binder.check (Scalar.ofOperand property operand) with
    | .text s => return .text negated (← bindOperand (.text s))
    | .number x => return .number negated (← bindOperand (.real x))
    | .flag b => return .flag negated (← bindOperand (.text (flagText b)))
  | .ordered order => do
    let x ← Binder.check (numberOperand property operand)
    return .ordered order (← bindOperand (.real x))
  | .contains negated => do
    let s := (← Binder.check (Scalar.ofOperand property operand)).toText
    if s.isEmpty then Binder.refuse (.invalidValue property .emptyPattern)
    else return .like negated (← bindOperand (.text (Text.Like.containing s)))
  | .isSet negated => return .isSet negated

def compileProperty (allowed : AllowList) (bag : Bag) (property : String)
    (operator : PropertyOperator) (operand : Option Json) :
    Binder (Lookup × PropertyTest) := do
  let key ← Binder.check (allowed.check property)
  return (⟨bag, key⟩, ← compileTest property operator operand)

end CohortQuery
