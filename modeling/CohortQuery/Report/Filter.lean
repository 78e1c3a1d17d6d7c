import CohortQuery.Json.Decode
import CohortQuery.Sql.Predicate

/-!
# Filters of reports

Which events a report counts. A field that is absent or blank does not restrict it; blanks
around the other ones do not matter. A bare date as upper bound includes its day.
-/

set_option autoImplicit false

namespace CohortQuery.Report

open Sql (RowTest)

structure Filter where
  event : Option String
  distinctId : Option String
  lower : Option String
  upper : Option String
  deriving DecidableEq, Repr

namespace Filter

def all : Filter := ⟨none, none, none, none⟩

def fieldNames : List String := ["event_name", "distinct_id", "from", "to"]

def record : Json.Record Filter :=
  (Json.Record.of Filter.mk)
    |>.field (optional "event_name")
    |>.field (optional "distinct_id")
    |>.field (optional "from")
    |>.field (optional "to")
where
  optional (name : String) : Json.RecordField (Option String) :=
    .defaulted name none (Json.Decode.option Json.Decode.text)

def typeName : String := "EventQueryFilter"

def decode : Json.Decoder Filter :=
  record.decode typeName

def encode (f : Filter) : Json :=
  .object (fieldNames.zip ([f.event, f.distinctId, f.lower, f.upper].map (Json.ofOption .text)))

/-- The text without blanks around it, if anything is left of it. -/
def nonBlank (s : Option String) : Option String :=
  (s.map Text.trim).filter fun s => !s.isEmpty

def bound (field : String) (s : Option String) (normalize : String → Option String) :
    Except CompileError (Option String) :=
  match nonBlank s with
  | none => .ok none
  | some s =>
    match normalize s with
    | some t => .ok (some t)
    | none => .error (.invalidBound field s)

/-- The two bounds in store form. They are compared as texts. -/
def range (f : Filter) : Except CompileError (Option String × Option String) := do
  let lower ← bound "from" f.lower Time.startText
  let upper ← bound "to" f.upper Time.endText
  match lower, upper with
  | some a, some b =>
    if b < a then .error (.invalidValue "from" .rangeInverted) else return (lower, upper)
  | _, _ => return (lower, upper)

def bindOptional (name : String) (make : Placeholder → RowTest) :
    Option Value → Binder (List RowTest)
  | none => return []
  | some v => return [make (← Binder.named name v)]

def compile (f : Filter) : Binder (List RowTest) := do
  let (lower, upper) ← Binder.check f.range
  let event ← bindOptional "event_name" (.equal .eventName) ((nonBlank f.event).map .text)
  let distinctId ←
    bindOptional "distinct_id" (.equal .distinctId) ((nonBlank f.distinctId).map .text)
  let lower ← bindOptional "from" (fun p => .notBefore ⟨.bound p, none⟩) (lower.map .time)
  let upper ← bindOptional "to" (fun p => .notAfter (.bound p)) (upper.map .time)
  return .inProject :: event ++ distinctId ++ lower ++ upper

end Filter

end CohortQuery.Report
