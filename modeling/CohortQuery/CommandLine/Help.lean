import CohortQuery.CommandLine.Invocation
import CohortQuery.Text.Join

/-!
# Help

The help of the program, of its commands and of `help` itself. The help of an option
stands on a line of its own, with the variable that stands in for it and the value that it
has by default.
-/

set_option autoImplicit false

namespace CohortQuery.CommandLine

open CohortQuery.Text (numeral)

namespace Help

def programName : String := "cohortql"

def version : String := programName ++ " 0.1.0\n"

def programAbout : String := "Cohort and insight queries over ClickHouse events"

def helpAbout : String := "Print this message or the help of the given subcommand(s)"

def placeholderChar (c : Char) : Char :=
  if c = '-' then '_' else c.toUpper

def usage (o : Opt) : String :=
  "--" ++ o.name ++ " <" ++ String.ofList (o.name.toList.map placeholderChar) ++ ">"

def label (o : Opt) : String :=
  match o.letter? with
  | some c => "  -" ++ String.ofList [c] ++ ", " ++ usage o
  | none => "      " ++ usage o

def default? : Opt → Option String
  | .offset => some (numeral defaultOffset)
  | .granularity => some defaultGranularity.name
  | _ => none

/-- The value that the variable has now; that of a password stays secret. -/
def shownValue (env : Environment) (o : Opt) (name : String) : String :=
  if o = .password then "" else "=" ++ (env.get? name).getD ""

def shownStandIn (env : Environment) (o : Opt) (name : String) : String :=
  "[env: " ++ name ++ shownValue env o name ++ "]"

def shownDefault (value : String) : String :=
  "[default: " ++ value ++ "]"

def margin : String := "          "

def indented (s : String) : String :=
  Text.join "\n" ((Text.pieces '\n' s).map (margin ++ ·))

def describe (env : Environment) (o : Opt) (help : String) : String :=
  Text.join " " ([help].filter (· ≠ "") ++
    (o.standIn?.map (shownStandIn env o)).toList ++ ((default? o).map shownDefault).toList)

def option (env : Environment) (o : Opt) (help : String) : String :=
  label o ++ "\n" ++ indented (describe env o help)

/-- The options of a scope: its own ones, then those that every scope has. -/
def options (env : Environment) (s : Scope) : List String :=
  (s.ownOptions ++ sharedOptions).map fun (o, help) => option env o help

def helpFlag : String := "  -h, --help\n" ++ margin ++ "Print help"

def versionFlag : String := "  -V, --version\n" ++ margin ++ "Print version"

def padded (width : Nat) (s : String) : String :=
  s ++ String.ofList (List.replicate (width - s.length) ' ')

def commandLine (name about : String) : String :=
  "  " ++ padded 12 name ++ about

def commands : List String :=
  CommandName.all.map (fun c => commandLine c.text c.about) ++ [commandLine "help" helpAbout]

def page (lines : List String) : String :=
  Text.join "\n" lines ++ "\n"

def command (env : Environment) (c : CommandName) : String :=
  let required := (c.ownOptions.map Prod.fst).filter Opt.required
  page ([c.about, "",
      Text.join " " (["Usage: " ++ programName, c.text, "[OPTIONS]"] ++ required.map usage), "",
      "Options:"] ++
    options env (.command c) ++ [helpFlag])

def program (env : Environment) : String :=
  page ([programAbout, "", "Usage: " ++ programName ++ " [OPTIONS] [COMMAND]", "",
      "Commands:"] ++ commands ++ ["", "Options:"] ++
    options env .program ++ [helpFlag, versionFlag])

def help : String :=
  page [helpAbout, "", "Usage: " ++ programName ++ " help [COMMAND]...", "",
    "Arguments:", "  [COMMAND]...  Print help for the subcommand(s)"]

end Help

def Topic.page (env : Environment) : Topic → String
  | scope .program => Help.program env
  | scope (.command c) => Help.command env c
  | help => Help.help

end CohortQuery.CommandLine
