import CohortQuery.Json.Decode

/-!
# Granularities

The length of the periods into which a trend is cut.
-/

set_option autoImplicit false

namespace CohortQuery.Report

inductive Granularity where
  | hour
  | day
  | week
  | month
  deriving DecidableEq, Repr

namespace Granularity

def table : List (String × Granularity) :=
  [("hour", hour), ("day", day), ("week", week), ("month", month)]

def name : Granularity → String
  | hour => "hour"
  | day => "day"
  | week => "week"
  | month => "month"

/-- The period of a row, as its first second. -/
def bucket : Granularity → String
  | hour => "toDateTime(toStartOfHour(timestamp))"
  | day => "toDateTime(toStartOfDay(timestamp))"
  | week => "toDateTime(toStartOfWeek(timestamp, 1))"
  | month => "toDateTime(toStartOfMonth(timestamp))"

def decode : Json.Decoder Granularity :=
  Json.Decode.variant (table.map Prod.fst) fun s => table.lookup s

def lowerAscii (s : String) : String :=
  String.ofList (s.toList.map Char.toLower)

/-- Reads a granularity in any letter case; the error is a message. -/
def read (s : String) : Except String Granularity :=
  let s := lowerAscii s
  match table.lookup s with
  | some g => .ok g
  | none => .error ("invalid granularity '" ++ s ++ "', expected hour, day, week or month")

end Granularity

end CohortQuery.Report
