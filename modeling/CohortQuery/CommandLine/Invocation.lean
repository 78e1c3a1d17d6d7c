import CohortQuery.CommandLine.Level
import CohortQuery.Report.Filter
import CohortQuery.Settings.Basic

/-!
# Invocations

What a command line asks for: settings, and a command with its arguments. Without a
command the program shows its help.
-/

set_option autoImplicit false

namespace CohortQuery.CommandLine

structure CohortArguments where
  definition : String
  projectId : String
  dateTo : Option String
  properties : List String
  deriving DecidableEq, Repr

inductive Command where
  | compile (cohort : CohortArguments) (materialize : Option String)
  | cohort (cohort : CohortArguments) (materialize : Option String) (limit : Option Nat)
  | events (projectId : String) (filter : Report.Filter) (limit : Option Nat) (offset : Nat)
  | counts (projectId : String) (filter : Report.Filter)
  | trend (projectId : String) (filter : Report.Filter) (granularity : Report.Granularity)
  | top (projectId : String) (filter : Report.Filter) (limit : Option Nat)
  | properties (projectId : String)
  | migrate
  deriving DecidableEq, Repr

structure Invocation where
  given : Settings.Given
  command : Option Command
  deriving DecidableEq, Repr

def defaultOffset : Nat := 0

def defaultGranularity : Report.Granularity := .day

namespace Values

def require (v : Values) (o : Opt) : Except Misuse o.Value :=
  match v.value? o with
  | some x => .ok x
  | none => .error .missing

def given (v : Values) : Settings.Given where
  config := v.value? .config
  url := v.value? .url
  database := v.value? .database
  user := v.value? .user
  password := v.value? .password
  timeoutSecs := v.value? .timeout

def filter (v : Values) : Report.Filter where
  event := v.value? .eventName
  distinctId := v.value? .distinctId
  lower := v.value? .lower
  upper := v.value? .upper

def cohort (v : Values) : Except Misuse CohortArguments := do
  return {
    definition := ← v.require .definition
    projectId := ← v.require .projectId
    dateTo := v.value? .dateTo
    properties := (v.value? .properties).getD [] }

def command (v : Values) : CommandName → Except Misuse Command
  | .compile => return .compile (← v.cohort) (v.value? .materialize)
  | .cohort => return .cohort (← v.cohort) (v.value? .materialize) (v.value? .limit)
  | .events =>
    return .events (← v.require .projectId) v.filter (v.value? .limit)
      ((v.value? .offset).getD defaultOffset)
  | .counts => return .counts (← v.require .projectId) v.filter
  | .trend =>
    return .trend (← v.require .projectId) v.filter
      ((v.value? .granularity).getD defaultGranularity)
  | .top => return .top (← v.require .projectId) v.filter (v.value? .limit)
  | .properties => return .properties (← v.require .projectId)
  | .migrate => return .migrate

end Values

/-- The command with its own level read, and that level's values. -/
def readCommand (env : Environment) (c : CommandName) (args : List String) :
    Except Stop (Command × Values) := do
  let (level, _) ← (Level.start (.command c)).read args
  let values ← (level.close env).mapError .misuse
  let command ← (values.command c).mapError .misuse
  return (command, values)

/-- Reads a command line. The command is settled before the options in front of it. -/
def Invocation.read (env : Environment) (args : List String) : Except Stop Invocation := do
  match ← (Level.start .program).read args with
  | (level, none) => do
    let values ← (level.close env).mapError .misuse
    return ⟨values.given, none⟩
  | (level, some (c, rest)) => do
    let (command, inner) ← readCommand env c rest
    let outer ← (level.close env).mapError .misuse
    return ⟨(inner.above outer).given, some command⟩

end CohortQuery.CommandLine
