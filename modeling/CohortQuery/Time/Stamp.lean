import CohortQuery.Text.Blank
import CohortQuery.Time.DateTime

/-!
# Timestamps as texts

A timestamp is given with an offset from UTC (RFC 3339), or without one in a freer
layout, or as a bare date. A bare date stands for its whole day: as a lower bound for
the first millisecond, as an upper bound for the last one.
-/

set_option autoImplicit false

namespace CohortQuery.Time

open CohortQuery.Text (isBlank isDigit ofDigits digitValue)

inductive Stamp where
  | point (t : DateTime)
  | day (d : Date)
  deriving DecidableEq, Repr

namespace Stamp

def first : Stamp → DateTime
  | point t => t
  | day d => ⟨d, 0, 0, 0, 0⟩

def last : Stamp → DateTime
  | point t => t
  | day d => ⟨d, 23, 59, 59, 999⟩

end Stamp

-- A part is read from the front of a text and leaves the rest.

def expect (c : Char) : List Char → Option (List Char)
  | d :: s => if d = c then some s else none
  | [] => none

def twoDigits : List Char → Option (Nat × List Char)
  | a :: b :: s =>
    if isDigit a && isDigit b then some (10 * digitValue a + digitValue b, s) else none
  | _ => none

def upToDigits (most : Nat) (s : List Char) : Option (Nat × List Char) :=
  let ds := (s.take most).takeWhile isDigit
  if ds.isEmpty then none else some (ofDigits ds, s.drop ds.length)

def manyDigits (s : List Char) : Option (Nat × List Char) :=
  let ds := s.takeWhile isDigit
  if ds.isEmpty then none else some (ofDigits ds, s.drop ds.length)

def skipBlanks (s : List Char) : List Char :=
  s.dropWhile isBlank

/-- Milliseconds from the digits of a fraction; the digits behind the third are cut. -/
def milliseconds (ds : List Char) : Nat :=
  ofDigits ((ds ++ ['0', '0', '0']).take 3)

/-- The fraction, if a point starts one; it needs a digit. -/
def fraction : List Char → Option (Nat × List Char)
  | '.' :: s =>
    let ds := s.takeWhile isDigit
    if ds.isEmpty then none else some (milliseconds ds, s.drop ds.length)
  | s => some (0, s)

def clock (date : Date) (hour minute second milli : Nat) : Option DateTime :=
  if hour ≤ 23 ∧ minute ≤ 59 ∧ second ≤ 60 then some ⟨date, hour, minute, second, milli⟩
  else none

def validDate (year : Int) (month day : Nat) : Option Date :=
  let d : Date := ⟨year, month, day⟩
  if d.valid then some d else none

def offset : List Char → Option (Int × List Char)
  | c :: s =>
    if c = 'Z' ∨ c = 'z' then some (0, s)
    else if c = '+' ∨ c = '-' ∨ c.toNat = 0x2212 then do
      let (hours, s) ← twoDigits s
      let s ← expect ':' s
      let (minutes, s) ← twoDigits s
      if 23 < hours ∨ 59 < minutes then none
      else
        let east : Int := hours * 60 + minutes
        return (if c = '+' then east else -east, s)
    else none
  | [] => none

def dateTimeMark : List Char → Option (List Char)
  | c :: s => if c = 'T' ∨ c = 't' ∨ c = ' ' then some s else none
  | [] => none

def withOffset (s : List Char) : Option DateTime := do
  let (century, s) ← twoDigits s
  let (ofCentury, s) ← twoDigits s
  let s ← expect '-' s
  let (month, s) ← twoDigits s
  let s ← expect '-' s
  let (day, s) ← twoDigits s
  let s ← dateTimeMark s
  let (hour, s) ← twoDigits s
  let s ← expect ':' s
  let (minute, s) ← twoDigits s
  let s ← expect ':' s
  let (second, s) ← twoDigits s
  let (milli, s) ← fraction s
  let (east, s) ← offset s
  if !s.isEmpty then none
  else
    let date ← validDate (100 * century + ofCentury) month day
    let t ← clock date hour minute second milli
    return t.addMinutes (-east)

/-- Four digits at most; with a sign any number of them. -/
def signedYear (s : List Char) : Option (Int × List Char) :=
  match skipBlanks s with
  | '-' :: s => (manyDigits s).map fun (n, s) => (-n, s)
  | '+' :: s => (manyDigits s).map fun (n, s) => (n, s)
  | s => (upToDigits 4 s).map fun (n, s) => (n, s)

def shortNumber (s : List Char) : Option (Nat × List Char) :=
  upToDigits 2 (skipBlanks s)

def looseDate (s : List Char) : Option (Date × List Char) := do
  let (year, s) ← signedYear s
  let s ← expect '-' s
  let (month, s) ← shortNumber s
  let s ← expect '-' s
  let (day, s) ← shortNumber s
  let d ← validDate year month day
  return (d, s)

def looseClock (date : Date) (s : List Char) : Option DateTime := do
  let (hour, s) ← shortNumber s
  let s ← expect ':' s
  let (minute, s) ← shortNumber s
  let s ← expect ':' s
  let (second, s) ← shortNumber s
  let (milli, s) ← fraction s
  if s.isEmpty then clock date hour minute second milli else none

/-- A date and a time of the day with blanks or a `T` between them. -/
def withoutOffset (s : List Char) : Option DateTime := do
  let (date, s) ← looseDate s
  looseClock date (skipBlanks s) <|> do
    looseClock date (← expect 'T' s)

def bareDate (s : List Char) : Option Date := do
  let (date, s) ← looseDate s
  if s.isEmpty then some date else none

def Stamp.read (s : String) : Option Stamp :=
  let cs := Text.trimChars s.toList
  (withOffset cs).map .point <|> (withoutOffset cs).map .point <|> (bareDate cs).map .day

/-- The store form of a timestamp as a lower bound. -/
def startText (s : String) : Option String :=
  (Stamp.read s).map (·.first.render)

def endText (s : String) : Option String :=
  (Stamp.read s).map (·.last.render)

end CohortQuery.Time
