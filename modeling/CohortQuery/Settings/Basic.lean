import CohortQuery.Limits
import CohortQuery.Settings.File
import CohortQuery.Text.Blank

/-!
# Settings

A setting is taken from the command line, else from the files, else it has a built-in
value. What comes out is checked once, here; the limits of queries stay inside the checked
bounds.
-/

set_option autoImplicit false

namespace CohortQuery.Settings

open CohortQuery.Text (numeral)

/-- The settings that the command line may give. -/
structure Given where
  config : Option String
  url : Option String
  database : Option String
  user : Option String
  password : Option String
  timeoutSecs : Option Nat
  deriving DecidableEq, Repr

def Given.nothing : Given := ⟨none, none, none, none, none, none⟩

structure Store where
  url : String
  database : String
  user : Option String
  password : Option String
  timeoutSecs : Nat
  compression : Bool
  deriving DecidableEq, Repr

structure Query where
  defaultLimit : Nat
  maxLimit : Nat
  topLimit : Nat
  deriving DecidableEq, Repr

structure Effective where
  store : Store
  query : Query
  deriving DecidableEq, Repr

def defaultUrl : String := "http://localhost:8123"

def defaultDatabase : String := "cohortql"

def defaultTimeoutSecs : Nat := 30

def defaultEventsLimit : Nat := 100

def defaultTopLimit : Nat := 10

def layer (given : Given) (file : File) : Effective :=
  let store := file.store.getD .empty
  let query := file.query.getD .empty
  { store :=
      { url := (given.url.or store.url).getD defaultUrl
        database := (given.database.or store.database).getD defaultDatabase
        user := given.user.or store.user
        password := given.password.or store.password
        timeoutSecs := (given.timeoutSecs.or store.timeoutSecs).getD defaultTimeoutSecs
        compression := store.compression.getD true }
    query :=
      { defaultLimit := query.defaultLimit.getD defaultEventsLimit
        maxLimit := query.maxLimit.getD Limits.listedEvents
        topLimit := query.topLimit.getD defaultTopLimit } }

inductive Flaw where
  | emptyUrl
  | emptyDatabase
  | zeroTimeout
  | maxLimit
  | defaultLimit (limit most : Nat)
  | topLimit
  deriving DecidableEq, Repr

def Flaw.message (f : Flaw) : String :=
  "Configuration error: " ++ match f with
  | emptyUrl =>
    "clickhouse.url must not be empty. Set via COHORTQL_CLICKHOUSE_URL env var or " ++
      "clickhouse.url in config file."
  | emptyDatabase => "clickhouse.database must not be empty"
  | zeroTimeout => "clickhouse.timeout_secs must be greater than 0"
  | maxLimit => "query.max_limit must be between 1 and " ++ numeral Limits.listedEvents
  | defaultLimit limit most =>
    "query.default_limit (" ++ numeral limit ++
      ") must be between 1 and query.max_limit (" ++ numeral most ++ ")"
  | topLimit => "query.top_events_limit must be between 1 and " ++ numeral Limits.topEvents

def inRange (n most : Nat) : Bool :=
  1 ≤ n && n ≤ most

def Effective.flaw? (e : Effective) : Option Flaw :=
  if Text.isBlankText e.store.url then some .emptyUrl
  else if Text.isBlankText e.store.database then some .emptyDatabase
  else if e.store.timeoutSecs = 0 then some .zeroTimeout
  else if !inRange e.query.maxLimit Limits.listedEvents then some .maxLimit
  else if !inRange e.query.defaultLimit e.query.maxLimit then
    some (.defaultLimit e.query.defaultLimit e.query.maxLimit)
  else if !inRange e.query.topLimit Limits.topEvents then some .topLimit
  else none

def clamp? (most n : Nat) : Option Nat :=
  if most = 0 then none else some (max 1 (min n most))

def Query.eventsLimit (q : Query) (requested : Option Nat) : Option Nat :=
  clamp? q.maxLimit (requested.getD q.defaultLimit)

def Query.topEventsLimit (q : Query) (requested : Option Nat) : Option Nat :=
  clamp? Limits.topEvents (requested.getD q.topLimit)

end CohortQuery.Settings
