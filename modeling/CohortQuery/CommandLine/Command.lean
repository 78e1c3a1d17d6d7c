import CohortQuery.CommandLine.Options

/-!
# Commands

The names of the commands, with the options that each of them has and what its help says.
-/

set_option autoImplicit false

namespace CohortQuery.CommandLine

inductive CommandName where
  | compile
  | cohort
  | events
  | counts
  | trend
  | top
  | properties
  | migrate
  deriving DecidableEq, Repr

namespace CommandName

def all : List CommandName :=
  [compile, cohort, events, counts, trend, top, properties, migrate]

def text : CommandName → String
  | compile => "compile"
  | cohort => "cohort"
  | events => "events"
  | counts => "counts"
  | trend => "trend"
  | top => "top"
  | properties => "properties"
  | migrate => "migrate"

def ofText? (s : String) : Option CommandName :=
  all.find? fun c => c.text = s

def about : CommandName → String
  | compile => "Compile a cohort definition and print the SQL with its parameters"
  | cohort => "Evaluate a cohort definition against the store"
  | events => "List raw events, newest first"
  | counts => "Event, user and session totals"
  | trend => "Event and user counts per time bucket"
  | top => "Most frequent events"
  | properties => "Property names seen recently in a project"
  | migrate => "Create or upgrade the ClickHouse schema"

end CommandName

def definitionOptions : List (Opt × String) :=
  [(.definition, "Path to the cohort definition JSON"),
    (.projectId, "Project the cohort is scoped to"),
    (.dateTo, "Evaluate time windows as of this timestamp instead of now"),
    (.properties, "Known property names; discovered from the store when omitted")]

def filterOptions : List (Opt × String) :=
  [(.projectId, ""),
    (.eventName, "Only events with this name"),
    (.distinctId, "Only events from this distinct id"),
    (.lower, "Lower time bound (ISO-8601 or `YYYY-MM-DD HH:MM:SS`)"),
    (.upper, "Upper time bound (ISO-8601 or `YYYY-MM-DD HH:MM:SS`)")]

def CommandName.ownOptions : CommandName → List (Opt × String)
  | compile => definitionOptions ++
    [(.materialize, "Print the materialization statements for this cohort id instead")]
  | cohort => definitionOptions ++
    [(.materialize, "Write the members into cohort_members under this cohort id"),
      (.limit, "Maximum members to print")]
  | events => filterOptions ++ [(.limit, ""), (.offset, "")]
  | counts => filterOptions
  | trend => filterOptions ++ [(.granularity, "Bucket size (hour, day, week, month)")]
  | top => filterOptions ++ [(.limit, "")]
  | properties => [(.projectId, "")]
  | migrate => []

def sharedOptions : List (Opt × String) :=
  [(.config, "Path to config file"),
    (.url, "ClickHouse HTTP URL"),
    (.database, "ClickHouse database name"),
    (.user, "ClickHouse user"),
    (.password, "ClickHouse password"),
    (.timeout, "Per-query timeout in seconds")]

/-- Where an option may stand: before the command, or behind it. -/
inductive Scope where
  | program
  | command (c : CommandName)
  deriving DecidableEq, Repr

namespace Scope

def ownOptions : Scope → List (Opt × String)
  | program => []
  | command c => c.ownOptions

def options (s : Scope) : List Opt :=
  (s.ownOptions ++ sharedOptions).map Prod.fst

def named? (s : Scope) (name : String) : Option Opt :=
  s.options.find? fun o => o.name = name

def lettered? (s : Scope) (c : Char) : Option Opt :=
  s.options.find? fun o => o.letter? = some c

end Scope

end CohortQuery.CommandLine
