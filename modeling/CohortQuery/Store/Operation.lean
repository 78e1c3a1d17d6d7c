import CohortQuery.Cohort.Compile
import CohortQuery.Property.Discovery
import CohortQuery.Report.Query
import CohortQuery.Store.Client

/-!
# Operations on the store

An operation compiles its statements first and asks the store only if they compile. The
statements of a materialization go one after the other, each if the one before succeeded.
-/

set_option autoImplicit false

namespace CohortQuery.Store

open CohortQuery.Text (numeral quoted)

def events (timeout : Nat) (projectId : String) (filter : Report.Filter)
    (limit offset : Nat) : Operation (List EventRow) := do
  let q ← Operation.compile (Report.query projectId (.events limit offset) filter)
  let rows ← Operation.within timeout (Call.fetchAll Table.events? q)
  Operation.note (Log.debug "Listed events" [("rows", numeral rows.length)])
  return rows

def totals (timeout : Nat) (projectId : String) (filter : Report.Filter) :
    Operation Totals := do
  let q ← Operation.compile (Report.query projectId .totals filter)
  Operation.within timeout (Call.fetchOne Table.totals? q)

def trend (timeout : Nat) (projectId : String) (filter : Report.Filter)
    (granularity : Report.Granularity) : Operation (List TrendRow) := do
  let q ← Operation.compile (Report.query projectId (.trend granularity) filter)
  Operation.within timeout (Call.fetchAll Table.trend? q)

def top (timeout : Nat) (projectId : String) (filter : Report.Filter) (limit : Nat) :
    Operation (List TopRow) := do
  let q ← Operation.compile (Report.query projectId (.top limit) filter)
  Operation.within timeout (Call.fetchAll Table.top? q)

def refusals (names : List String) : List Log.Entry :=
  (AllowList.refused names).map fun name =>
    Log.warn "Skipping property with unsafe name" [("property", name)]

def noteAll : List Log.Entry → Operation Unit
  | [] => return ()
  | e :: rest => do
    Operation.note e
    noteAll rest

/-- The allow-list of the names, with a log of those that are not safe. -/
def screened (names : List String) : Operation AllowList := do
  noteAll (refusals names)
  return .ofNames names

def properties (timeout : Nat) (projectId : String) : Operation AllowList := do
  let q ← Operation.compile
    (Discovery.query projectId Limits.discoveryDays Limits.discoveredNames)
  let names ← Operation.within timeout (Call.fetchAll Table.names? q)
  Operation.note (Log.debug "Discovered property names" [("count", numeral names.length)])
  screened names

structure CohortRequest where
  projectId : String
  definition : Definition
  dateTo : Option String
  allowed : AllowList

namespace CohortRequest

def listing (r : CohortRequest) : Except CompileError Query := do
  r.definition.listing r.allowed (← Bindings.start r.projectId r.dateTo)

def materialization (r : CohortRequest) (cohort : String) :
    Except CompileError Materialization := do
  r.definition.materialization cohort r.allowed (← Bindings.start r.projectId r.dateTo)

end CohortRequest

def shownDate : Option Value → String
  | some (.time s) => "Some(" ++ quoted s ++ ")"
  | _ => "None"

def compiledNote (d : Definition) (q : Query) : Log.Entry :=
  Log.debug "Compiled cohort query"
    [("members", numeral d.members.length), ("params", numeral q.params.length),
      ("date_to", shownDate (q.params.get? Bindings.dateToName))]

def members (timeout : Nat) (r : CohortRequest) (limit : Nat) :
    Operation (List Member) := do
  let q ← Operation.compile r.listing
  Operation.note (compiledNote r.definition q)
  let rows ← if limit = 0 then pure []
    else Operation.within timeout (Call.fetchFirst limit Table.members? q)
  if rows.length = limit then
    Operation.note (Log.debug "Cohort member listing truncated" [("limit", numeral limit)])
  return rows

def materialize (timeout : Nat) (r : CohortRequest) (cohort : String) :
    Operation StoredCohort := do
  let m ← Operation.compile (r.materialization cohort)
  Operation.within timeout (Call.execute m.clear)
  Operation.within timeout (Call.execute m.insert)
  let count ← Operation.within timeout (Call.fetchOne Table.numbers? m.count)
  Operation.note (Log.debug "Cohort materialized"
    [("cohort_id", quoted cohort), ("members", numeral count)])
  return ⟨cohort, count⟩

end CohortQuery.Store
