import CohortQuery.Decimal.Power
import CohortQuery.Json.Fault
import CohortQuery.Json.Value

/-!
# Typed reading of JSON values

A record is read from an object, by the names of its fields, or from a list, by their
order. In an object the first field of the text that does not fit is reported, and only
then a field that is missing; fields that the record does not know are ignored.
-/

set_option autoImplicit false

namespace CohortQuery.Json

open CohortQuery.Decimal (twoTo)
open CohortQuery.Text (numeral)

def found : Json → Found
  | .null => .null
  | .bool b => .bool b
  | .number (.integer i) => .integer i
  | .number (.real x) => .real x
  | .text s => .text s
  | .list _ => .sequence
  | .object _ => .map

abbrev Decoder (α : Type) := Json → Except Mismatch α

namespace Decode

def mistyped {α : Type} (v : Json) (expected : String) : Except Mismatch α :=
  .error (.type v.found expected)

def text : Decoder String
  | .text s => .ok s
  | v => mistyped v "a string"

def bool : Decoder Bool
  | .bool b => .ok b
  | v => mistyped v "a boolean"

def null : Decoder Unit
  | .null => .ok ()
  | v => mistyped v "unit"

/-- A whole number below `2^32`; a real number does not fit even if it is whole. -/
def word32 : Decoder Nat
  | .number (.integer i) =>
    if 0 ≤ i ∧ i < twoTo 32 then .ok i.toNat else .error (.value (.integer i) "u32")
  | v => mistyped v "u32"

def word64 : Decoder Nat
  | .number (.integer i) =>
    if 0 ≤ i ∧ i < twoTo 64 then .ok i.toNat else .error (.value (.integer i) "u64")
  | v => mistyped v "u64"

def option {α : Type} (decode : Decoder α) : Decoder (Option α)
  | .null => .ok none
  | v => (decode v).map some

/-- Any value, `null` being none. -/
def operand : Decoder (Option Json)
  | .null => .ok none
  | v => .ok (some v)

def list {α : Type} (decode : Decoder α) : Decoder (List α)
  | .list items => items.mapM decode
  | v => mistyped v "a sequence"

/-- One of the named values: its name, or an object with this name as the only key and
`null` as its content. -/
def variant {α : Type} (known : List String) (named : String → Option α) : Decoder α
  | .text s => pick s
  | .object [(s, content)] => do
    let a ← pick s
    null content
    .ok a
  | .object _ => .error (.value .map "map with a single key")
  | v => mistyped v "string or map"
where
  pick (s : String) : Except Mismatch α :=
    match named s with
    | some a => .ok a
    | none => .error (.unknownVariant s known)

end Decode

/-- A field with its decoder, and its value where it is absent if it may be. -/
structure RecordField (α : Type) where
  name : String
  decode : Decoder α
  absent : Option α

namespace RecordField

def required {α : Type} (name : String) (decode : Decoder α) : RecordField α :=
  ⟨name, decode, none⟩

def defaulted {α : Type} (name : String) (value : α) (decode : Decoder α) : RecordField α :=
  ⟨name, decode, some value⟩

def ofFields {α : Type} (f : RecordField α) (fields : Fields) : Except Mismatch α :=
  match get? fields f.name, f.absent with
  | some v, _ => f.decode v
  | none, some a => .ok a
  | none, none => .error (.missingField f.name)

def flaw? {α : Type} (f : RecordField α) (v : Json) : Option Mismatch :=
  match f.decode v with
  | .ok _ => none
  | .error m => some m

end RecordField

structure Record (α : Type) where
  size : Nat
  flaw? : String → Json → Option Mismatch
  ofFields : Fields → Except Mismatch α
  ofItems : String → List Json → Except Mismatch (α × List Json)

namespace Record

def of {α : Type} (a : α) : Record α :=
  ⟨0, fun _ _ => none, fun _ => .ok a, fun _ items => .ok (a, items)⟩

def field {α β : Type} (r : Record (α → β)) (f : RecordField α) : Record β where
  size := r.size + 1
  flaw? key v := if key = f.name then f.flaw? v else r.flaw? key v
  ofFields fields := do
    let g ← r.ofFields fields
    let a ← f.ofFields fields
    return g a
  ofItems expected items := do
    let (g, rest) ← r.ofItems expected items
    match rest, f.absent with
    | v :: rest, _ => return (g (← f.decode v), rest)
    | [], some a => return (g a, [])
    | [], none => .error (.length r.size expected)

def decode {α : Type} (name : String) (r : Record α) : Decoder α
  | .object fields =>
    match fields.findSome? fun (key, v) => r.flaw? key v with
    | some m => .error m
    | none => r.ofFields fields
  | .list items => do
    let (a, rest) ← r.ofItems ("struct " ++ name ++ " with " ++ numeral r.size ++ " elements") items
    if rest.isEmpty then return a
    else .error (.length items.length "fewer elements in array")
  | v => Decode.mistyped v ("struct " ++ name)

end Record

end CohortQuery.Json
