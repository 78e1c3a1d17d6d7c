import CohortQuery.Decimal.Power
import CohortQuery.Report.Granularity
import CohortQuery.Text.Blank
import CohortQuery.Text.Numeral
import CohortQuery.Text.Pieces

/-!
# Options

Every option of the command line takes a value. The option alone decides what texts it
accepts and what they are read as.
-/

set_option autoImplicit false

namespace CohortQuery.CommandLine

open CohortQuery.Text (isDigit numeral signedNumeral)

inductive Misuse where
  | unknownCommand
  | unknownArgument
  | noValue
  /-- The value of a flag, which has none. -/
  | needlessValue
  | repeated
  | missing
  | refused (message : String)
  deriving DecidableEq, Repr

def Misuse.message : Misuse → String
  | unknownCommand => "unrecognized subcommand"
  | unknownArgument => "unexpected argument found"
  | noValue => "a value is required but none was supplied"
  | needlessValue => "unexpected value for a flag"
  | repeated => "an argument cannot be used multiple times"
  | missing => "required arguments were not provided"
  | refused message => "invalid value: " ++ message

inductive Opt where
  | config
  | url
  | database
  | user
  | password
  | timeout
  | definition
  | projectId
  | dateTo
  | properties
  | materialize
  | limit
  | offset
  | eventName
  | distinctId
  | lower
  | upper
  | granularity
  deriving DecidableEq, Repr

def most (bits : Nat) : Nat :=
  Decimal.twoTo bits - 1

def invalidDigit : Misuse :=
  .refused "invalid digit found in string"

def readSigned (negative : Bool) (s : List Char) : Except Misuse Int :=
  let ds := s.takeWhile isDigit
  let n := Text.ofDigits ds
  if negative && most 63 + 1 < n then
    .error (.refused "number too small to fit in target type")
  else if !negative && most 63 < n then
    .error (.refused "number too large to fit in target type")
  else if ds.isEmpty ∨ ds ≠ s then .error invalidDigit
  else .ok (if negative then -n else n)

def readInteger : List Char → Except Misuse Int
  | [] => .error (.refused "cannot parse integer from empty string")
  | '-' :: s => readSigned true s
  | '+' :: s => readSigned false s
  | s => readSigned false s

def readCount (s : String) : Except Misuse Nat := do
  let i ← readInteger s.toList
  if 0 ≤ i ∧ i ≤ most 32 then return i.toNat
  else throw (.refused (signedNumeral i ++ " is not in 0..=" ++ numeral (most 32)))

def unsigned : List Char → List Char
  | '+' :: s => s
  | s => s

/-- A number of seconds, which may stand between blanks; a query needs some time. -/
def readSeconds (s : String) : Except Misuse Nat :=
  let invalid := .error (.refused ("Invalid timeout '" ++ s ++ "'. Expected seconds"))
  match Text.readNumeral (unsigned (Text.trimChars s.toList)) with
  | none => invalid
  | some 0 => .error (.refused "Timeout must be greater than 0")
  | some n => if n ≤ most 64 then .ok n else invalid

def readPath (s : String) : Except Misuse String :=
  if s.isEmpty then .error .noValue else .ok s

namespace Opt

abbrev Value : Opt → Type
  | timeout | limit | offset => Nat
  | properties => List String
  | granularity => Report.Granularity
  | config | url | database | user | password | definition | projectId | dateTo
  | materialize | eventName | distinctId | lower | upper => String

def read (o : Opt) (s : String) : Except Misuse o.Value :=
  match o with
  | config | definition => readPath s
  | timeout => readSeconds s
  | limit | offset => readCount s
  | granularity => (Report.Granularity.read s).mapError .refused
  | properties => .ok (Text.pieces ',' s)
  | url | database | user | password | projectId | dateTo | materialize | eventName
  | distinctId | lower | upper => .ok s

def repeats (o : Opt) : Bool :=
  o = properties

/-- A new value behind the one that the option has. -/
def add (o : Opt) (known : Option o.Value) (new : o.Value) : o.Value :=
  match o, known, new with
  | properties, some known, new => List.append known new
  | _, _, new => new

def name : Opt → String
  | config => "config"
  | url => "clickhouse-url"
  | database => "clickhouse-database"
  | user => "clickhouse-user"
  | password => "clickhouse-password"
  | timeout => "clickhouse-timeout-secs"
  | definition => "definition"
  | projectId => "project-id"
  | dateTo => "date-to"
  | properties => "properties"
  | materialize => "materialize"
  | limit => "limit"
  | offset => "offset"
  | eventName => "event-name"
  | distinctId => "distinct-id"
  | lower => "from"
  | upper => "to"
  | granularity => "granularity"

def letter? : Opt → Option Char
  | config => some 'c'
  | definition => some 'd'
  | _ => none

def standIn? : Opt → Option String
  | config => some "COHORTQL_CONFIG"
  | url => some "COHORTQL_CLICKHOUSE_URL"
  | database => some "COHORTQL_CLICKHOUSE_DATABASE"
  | user => some "COHORTQL_CLICKHOUSE_USER"
  | password => some "COHORTQL_CLICKHOUSE_PASSWORD"
  | timeout => some "COHORTQL_CLICKHOUSE_TIMEOUT_SECS"
  | _ => none

def required (o : Opt) : Bool :=
  o = definition || o = projectId

end Opt

end CohortQuery.CommandLine
