import CohortQuery.Text.Numeral
import CohortQuery.Time.Date

/-!
# Points in time

A date with a time of the day, to the millisecond, in UTC. The second 60 is a leap
second, which any minute may have. The store form is `YYYY-MM-DD hh:mm:ss.mmm`; years
outside 0 to 9999 have a sign.
-/

set_option autoImplicit false

namespace CohortQuery.Time

open CohortQuery.Text (paddedNumeral)

structure DateTime where
  date : Date
  hour : Nat
  minute : Nat
  second : Nat
  milli : Nat
  deriving DecidableEq, Repr

def renderYear (y : Int) : String :=
  if 0 ≤ y ∧ y ≤ 9999 then paddedNumeral 4 y.toNat
  else (if y < 0 then "-" else "+") ++ paddedNumeral 4 y.natAbs

def Date.render (d : Date) : String :=
  renderYear d.year ++ "-" ++ paddedNumeral 2 d.month ++ "-" ++ paddedNumeral 2 d.day

namespace DateTime

def renderClock (t : DateTime) : String :=
  paddedNumeral 2 t.hour ++ ":" ++ paddedNumeral 2 t.minute ++ ":" ++ paddedNumeral 2 t.second

def render (t : DateTime) : String :=
  t.date.render ++ " " ++ t.renderClock ++ "." ++ paddedNumeral 3 t.milli

/-- The form of records, with a fraction where it is not zero. -/
def renderRecord (t : DateTime) : String :=
  t.date.render ++ "T" ++ t.renderClock ++
    (if t.milli = 0 then "" else "." ++ paddedNumeral 3 t.milli) ++ "Z"

/-- The point so many minutes later; second and fraction stay. -/
def addMinutes (t : DateTime) (minutes : Int) : DateTime :=
  let total : Int := t.hour * 60 + t.minute + minutes
  let ofDay := total % 1440
  { t with
    date := if total / 1440 = 0 then t.date else .ofDays (t.date.toDays + total / 1440)
    hour := (ofDay / 60).toNat
    minute := (ofDay % 60).toNat }

/-- The point `seconds` after 1970-01-01, with a fraction. A fraction of a second or more
is a leap second and needs the second 59. -/
def ofEpoch? (seconds : Int) (nanos : Nat) : Option DateTime :=
  let ofDay := (seconds % 86400).toNat
  let date := Date.ofDays (seconds / 86400)
  let leap := 1000000000 ≤ nanos
  if 2000000000 ≤ nanos ∨ (leap ∧ ofDay % 60 ≠ 59) ∨ !date.valid then none
  else
    some
      { date
        hour := ofDay / 3600
        minute := ofDay / 60 % 60
        second := ofDay % 60 + nanos / 1000000000
        milli := nanos % 1000000000 / 1000000 }

def ofEpochMillis? (millis : Int) : Option DateTime :=
  ofEpoch? (millis / 1000) ((millis % 1000).toNat * 1000000)

end DateTime

end CohortQuery.Time
