import CohortQuery.Cohort.Read
import CohortQuery.CommandLine.Invocation
import CohortQuery.Path
import CohortQuery.Program.Failure
import CohortQuery.Store.Migration
import CohortQuery.Store.Operation

/-!
# The work of the commands

Each command is an exchange with the store that ends in an answer. The command `compile`
asks nothing: it answers with the statements that `cohort` would send.
-/

set_option autoImplicit false

namespace CohortQuery.Program

open CommandLine (Command CohortArguments)
open CohortQuery.Text (numeral)

structure Surroundings where
  disk : Disk
  places : Path.Places
  environment : Environment
  /-- The numeral of the present second. -/
  clock : String

abbrev Work := ExceptT Failure Store.Exchange

namespace Work

def check {α : Type} (r : Except Failure α) : Work α :=
  ExceptT.mk (pure r)

def wrapping {α : Type} (wrap : Store.StoreError → Failure) (op : Store.Operation α) : Work α :=
  ExceptT.mk do return (← op.run).mapError wrap

def ofStore {α : Type} (op : Store.Operation α) : Work α :=
  wrapping .store op

end Work

def readDefinition (s : Surroundings) (path : String) : Except Failure Definition :=
  let expanded := Path.expand s.places path
  match (s.disk expanded).content with
  | .error _ => .error (.unreadable expanded)
  | .ok content => (Definition.read content).mapError (.malformed path)

/-- The statements of a cohort: those that list its members or those that store them. -/
inductive Compiled where
  | listing (q : Query)
  | materialization (m : Materialization)
  deriving DecidableEq

def Compiled.toJson : Compiled → Json
  | listing q => q.toJson
  | materialization m => m.toJson

def Compiled.notes (d : Definition) : Compiled → List Log.Entry
  | listing q => [Store.compiledNote d q]
  | materialization _ => []

def statements (r : Store.CohortRequest) (materialize : Option String) :
    Except CompileError Compiled :=
  match materialize with
  | some cohort => Compiled.materialization <$> r.materialization cohort
  | none => Compiled.listing <$> r.listing

def compile (s : Surroundings) (args : CohortArguments) (materialize : Option String) :
    Work Compiled := do
  let d ← Work.check (readDefinition s args.definition)
  let allowed ← Work.ofStore (Store.screened args.properties)
  let c ← Work.check
    ((statements ⟨args.projectId, d, args.dateTo, allowed⟩ materialize).mapError .compile)
  Work.ofStore (Store.noteAll (c.notes d))
  return c

/-- The given properties, or those that the store knows of if none is given. -/
def allowList (timeout : Nat) (args : CohortArguments) : Store.Operation AllowList :=
  if args.properties.isEmpty then Store.properties timeout args.projectId
  else Store.screened args.properties

/-- The members of a cohort, or their number if they are stored instead. -/
def cohort (s : Surroundings) (timeout : Nat) (args : CohortArguments)
    (materialize : Option String) (limit : Option Nat) : Work Json := do
  let d ← Work.check (readDefinition s args.definition)
  let allowed ← Work.ofStore (allowList timeout args)
  Work.ofStore (Store.Operation.note
    (Log.debug "Property allow-list ready" [("properties", numeral allowed.size)]))
  let r : Store.CohortRequest := ⟨args.projectId, d, args.dateTo, allowed⟩
  match materialize with
  | some cohort => return (← Work.ofStore (Store.materialize timeout r cohort)).toJson
  | none =>
    let limit := min (limit.getD Limits.cohortMembers) Limits.cohortMembers
    let rows ← Work.ofStore (Store.members timeout r limit)
    return .list (rows.map (·.toJson))

def shown (v : Json) : String :=
  v.indented ++ "\n"

def shownRows {α : Type} (encode : α → Json) (rows : List α) : String :=
  shown (.list (rows.map encode))

/-- The settings that a command works under. Checked settings have both limits. -/
def execute (s : Surroundings) (settings : Settings.Effective) : Command → Work String
  | .compile args materialize => return shown (← compile s args materialize).toJson
  | .cohort args materialize limit =>
    return shown (← cohort s timeout args materialize limit)
  | .events projectId filter limit offset => do
    let limit := (settings.query.eventsLimit limit).getD Limits.listedEvents
    let rows ← Work.ofStore (Store.events timeout projectId filter limit offset)
    return shownRows Store.EventRow.toJson rows
  | .counts projectId filter =>
    return shown (← Work.ofStore (Store.totals timeout projectId filter)).toJson
  | .trend projectId filter granularity => do
    let rows ← Work.ofStore (Store.trend timeout projectId filter granularity)
    return shownRows Store.TrendRow.toJson rows
  | .top projectId filter limit => do
    let limit := (settings.query.topEventsLimit limit).getD Limits.topEvents
    let rows ← Work.ofStore (Store.top timeout projectId filter limit)
    return shownRows Store.TopRow.toJson rows
  | .properties projectId => do
    let allowed ← Work.ofStore (Store.properties timeout projectId)
    return shownRows Json.text allowed.toTexts
  | .migrate => do
    Work.wrapping .schema (Store.Migration.run settings.store s.clock)
    return "Schema is at version " ++ Text.signedNumeral Store.Schema.version ++ "\n"
where
  timeout : Nat := settings.store.timeoutSecs

end CohortQuery.Program
