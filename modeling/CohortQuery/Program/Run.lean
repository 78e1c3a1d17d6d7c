import CohortQuery.CommandLine.Help
import CohortQuery.Environment.File
import CohortQuery.Log.Filter
import CohortQuery.Program.Work
import CohortQuery.Store.Wire

/-!
# Runs of the program

A run reads its arguments, loads its settings, does the work of the command and ends with
an exit code. The store answers it from a list of replies.
-/

set_option autoImplicit false

namespace CohortQuery.Program

open CommandLine (Invocation Stop Command)

structure Ended where
  code : Nat
  output : String
  /-- The entries of the log that its filter shows. -/
  log : List Log.Entry
  /-- Why the run failed, or why its arguments are refused. -/
  complaint : Option String
  requests : List Store.WireRequest

namespace Ended

def printed (log : List Log.Entry) (output : String) : Ended :=
  ⟨0, output, log, none, []⟩

def failed (log : List Log.Entry) (f : Failure) : Ended :=
  ⟨1, "", log, some f.message, []⟩

def refused (log : List Log.Entry) (m : CommandLine.Misuse) : Ended :=
  ⟨2, "", log, some m.message, []⟩

end Ended

/-- The filter of the log: from the environment, else one that shows neither details nor
less than warnings. -/
def logFilter (env : Environment) : Log.Filter :=
  .read (((env.get? "COHORTQL_LOG").or (env.get? "RUST_LOG")).getD "info,cohortql=info")

def started : Log.Entry :=
  Log.debug "Application starting" []

def configured (s : Settings.Store) : Log.Entry :=
  Log.debug "ClickhouseService configured"
    [("url", s.url), ("database", s.database),
      ("compression", if s.compression then "true" else "false"),
      ("timeout_secs", Text.numeral s.timeoutSecs)]

/-- The settings of a command. One that never asks the store gets the built-in ones and
reads no file. -/
def settingsFor (s : Surroundings) (given : Settings.Given) :
    Command → Settings.Loader Settings.Effective
  | .compile _ _ => return Settings.layer .nothing .empty
  | _ => do
    let settings ← Settings.load s.disk s.places given
    Settings.note (configured settings.store)
    return settings

/-- Plays the work of a command; whatever the filter hides is dropped from the log. -/
def perform (s : Surroundings) (given : Settings.Given) (c : Command)
    (otherwise : Store.Reply) (replies : List Store.Reply) : Ended :=
  match (settingsFor s given c).run.run [] with
  | (.error e, log) => .failed log (.settings e)
  | (.ok settings, log) =>
    let p := (execute s settings c).run.play otherwise replies
    let ended : Ended := match p.value with
      | .ok output => .printed (log ++ p.log) output
      | .error f => .failed (log ++ p.log) f
    { ended with requests := p.requests.map (·.onWire settings.store) }

/-- A run whose store gives the replies in turn, and `otherwise` when none is left. -/
def run (s : Surroundings) (args : List String) (otherwise : Store.Reply)
    (replies : List Store.Reply) : Ended :=
  let env := s.environment.withFile s.disk s.places
  let ended : Ended := match Invocation.read env args with
    | .error (.help topic) => .printed [] (topic.page env)
    | .error .version => .printed [] CommandLine.Help.version
    | .error (.misuse m) => .refused [] m
    | .ok ⟨_, none⟩ => .printed [] (CommandLine.Help.program env)
    | .ok ⟨given, some c⟩ => perform { s with environment := env } given c otherwise replies
  { ended with log := (started :: ended.log).filter (logFilter env).shows }

end CohortQuery.Program
