import CohortQuery.Report.Filter
import CohortQuery.Report.Granularity
import CohortQuery.Sql.Person

/-!
# Reports over events

Four statements that share one meaning of a filter: the events themselves, their totals,
their trend over time and the most frequent ones. Totals and trend leave out the events
that only identify a person.
-/

set_option autoImplicit false

namespace CohortQuery.Report

open Sql (RowTest Select)

inductive Kind where
  | events (limit offset : Nat)
  | totals
  | trend (granularity : Granularity)
  | top (limit : Nat)
  deriving DecidableEq, Repr

def clamp (most n : Nat) : Nat :=
  max 1 (min n most)

namespace Kind

def columns : Kind → List String
  | events _ _ =>
    ["event_id", "event_name", "event_type", "distinct_id", "person_id",
      Sql.resolvedPersonColumn, "session_id", "properties", "timestamp"]
  | totals =>
    ["count() AS count", users, "uniqIf(session_id, session_id != '') AS sessions"]
  | trend g => [g.bucket ++ " AS period", "count() AS count", users]
  | top _ => ["event_name", "count() AS count", users]
where
  users : String := Sql.personCount ++ " AS unique_users"

/-- The conditions of the kind itself, besides those of the filter. -/
def ownTests : Kind → List RowTest
  | totals | trend _ => [.notIdentify]
  | events _ _ | top _ => []

def groups : Kind → List String
  | trend _ => ["period"]
  | top _ => ["event_name"]
  | events _ _ | totals => []

def order : Kind → List String
  | events _ _ => ["timestamp DESC"]
  | trend _ => ["period"]
  | top _ => ["count DESC", "event_name"]
  | totals => []

def limit? : Kind → Option Nat
  | events limit _ => some (clamp Limits.listedEvents limit)
  | top limit => some (clamp Limits.topEvents limit)
  | totals | trend _ => none

def offset? : Kind → Option Nat
  | events _ offset => some offset
  | totals | trend _ | top _ => none

end Kind

def bindNumber (name : String) : Option Nat → Binder (Option Placeholder)
  | none => return none
  | some n => return some (← Binder.named name (.word n))

def compileSelect (kind : Kind) (filter : Filter) : Binder Select := do
  let tests ← filter.compile
  let limit ← bindNumber "limit" kind.limit?
  let offset ← bindNumber "offset" kind.offset?
  return {
    Select.of Sql.eventsTable with
    columns := kind.columns
    conditions := (tests ++ kind.ownTests).map RowTest.render
    groups := kind.groups
    order := kind.order
    limit := limit.map Placeholder.render
    offset := offset.map Placeholder.render }

def finishSelect (step : Binder Select) (b : Bindings) : Except CompileError Query :=
  match step.run.run b with
  | (.ok q, b) => .ok (b.finish q.render)
  | (.error e, _) => .error e

def query (projectId : String) (kind : Kind) (filter : Filter) : Except CompileError Query := do
  finishSelect (compileSelect kind filter) (← Bindings.forProject projectId)

end CohortQuery.Report
