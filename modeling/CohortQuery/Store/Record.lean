import CohortQuery.Property.Stored
import CohortQuery.Time.DateTime
import CohortQuery.Uuid

/-!
# Rows and records

What the store sends as rows, and the records that become of them.
-/

set_option autoImplicit false

namespace CohortQuery.Store

structure EventRow where
  eventId : Uuid
  eventName : String
  eventType : String
  distinctId : String
  personId : String
  resolvedPersonId : String
  sessionId : String
  properties : String
  millis : Int
  deriving DecidableEq, Repr

structure Totals where
  count : Nat
  users : Nat
  sessions : Nat
  deriving DecidableEq, Repr

structure TrendRow where
  seconds : Nat
  count : Nat
  users : Nat
  deriving DecidableEq, Repr

structure TopRow where
  eventName : String
  count : Nat
  users : Nat
  deriving DecidableEq, Repr

structure Member where
  distinctId : String
  resolvedPersonId : String
  deriving DecidableEq, Repr

/-- The stored members of a cohort, by their number. -/
structure StoredCohort where
  cohort : String
  members : Nat
  deriving DecidableEq, Repr

/-- Rows of one kind, or no table at all. -/
inductive Table where
  | nothing
  | events (rows : List EventRow)
  | totals (rows : List Totals)
  | trend (rows : List TrendRow)
  | top (rows : List TopRow)
  | members (rows : List Member)
  | names (rows : List String)
  | numbers (rows : List Nat)
  | versions (rows : List Int)
  | flags (rows : List Bool)
  deriving DecidableEq, Repr

namespace Table

def events? : Table → Option (List EventRow)
  | events rows => some rows
  | _ => none

def totals? : Table → Option (List Totals)
  | totals rows => some rows
  | _ => none

def trend? : Table → Option (List TrendRow)
  | trend rows => some rows
  | _ => none

def top? : Table → Option (List TopRow)
  | top rows => some rows
  | _ => none

def members? : Table → Option (List Member)
  | members rows => some rows
  | _ => none

def names? : Table → Option (List String)
  | names rows => some rows
  | _ => none

def numbers? : Table → Option (List Nat)
  | numbers rows => some rows
  | _ => none

def versions? : Table → Option (List Int)
  | versions rows => some rows
  | _ => none

def flags? : Table → Option (List Bool)
  | flags rows => some rows
  | _ => none

end Table

/-- A point in time of a record; one that no calendar has is shown as the first one. -/
def instant (millis : Int) : Json :=
  .text (((Time.DateTime.ofEpochMillis? millis).getD ⟨⟨1970, 1, 1⟩, 0, 0, 0, 0⟩).renderRecord)

def EventRow.toJson (r : EventRow) : Json :=
  .object [("event_id", .text r.eventId.render), ("event_name", .text r.eventName),
    ("event_type", .text r.eventType), ("distinct_id", .text r.distinctId),
    ("person_id", .text r.personId), ("resolved_person_id", .text r.resolvedPersonId),
    ("session_id", if r.sessionId.isEmpty then .null else .text r.sessionId),
    ("properties", storedProperties r.properties), ("timestamp", instant r.millis)]

def Totals.toJson (r : Totals) : Json :=
  .object [("count", .int r.count), ("unique_users", .int r.users),
    ("sessions", .int r.sessions)]

def TrendRow.toJson (r : TrendRow) : Json :=
  .object [("period", instant (1000 * r.seconds)), ("count", .int r.count),
    ("unique_users", .int r.users)]

def TopRow.toJson (r : TopRow) : Json :=
  .object [("event_name", .text r.eventName), ("count", .int r.count),
    ("unique_users", .int r.users)]

def Member.toJson (r : Member) : Json :=
  .object [("distinct_id", .text r.distinctId),
    ("resolved_person_id", .text r.resolvedPersonId)]

def StoredCohort.toJson (r : StoredCohort) : Json :=
  .object [("cohort_id", .text r.cohort), ("members", .int r.members)]

end CohortQuery.Store
