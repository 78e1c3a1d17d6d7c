import CohortQuery.Decimal.Binary64

/-!
# Shortest decimals

A positive binary64 number is written with the fewest digits that read back as the
same number; of two candidates of that length the nearer is taken, of two equally near
the one with an even last digit.
-/

set_option autoImplicit false

namespace CohortQuery.Decimal

/-- A digit count is tried on the grid of multiples of `10^place`. The number is
`4m · 2^(e-2)`; the numbers that round to it lie between `low` and `high` in that unit,
ends included when `m` is even. -/
structure Interval where
  low : Nat
  center : Nat
  high : Nat
  closed : Bool
  unit : Int
  deriving DecidableEq, Repr

namespace Interval

def ofFinite (mantissa : Nat) (exponent : Int) : Interval :=
  { low := 4 * mantissa - (if mantissa = twoTo 52 ∧ -1074 < exponent then 1 else 2)
    center := 4 * mantissa
    high := 4 * mantissa + 2
    closed := mantissa % 2 = 0
    unit := exponent - 2 }

/-- Factors that bring multiples of `10^place` and of `2^unit` to whole numbers. -/
def gridFactor (unit place : Int) : Nat :=
  tenTo place.toNat * twoTo (-unit).toNat

def unitFactor (unit place : Int) : Nat :=
  twoTo unit.toNat * tenTo (-place).toNat

def covers (i : Interval) (place : Int) (digits : Nat) : Bool :=
  let x := digits * gridFactor i.unit place
  let lo := i.low * unitFactor i.unit place
  let hi := i.high * unitFactor i.unit place
  if i.closed then lo ≤ x && x ≤ hi else lo < x && x < hi

def best? (i : Interval) (place : Int) : Option Nat :=
  let center := i.center * unitFactor i.unit place
  let grid := gridFactor i.unit place
  let below := center / grid
  let above := below + 1
  let toBelow := center - below * grid
  let toAbove := above * grid - center
  match i.covers place below, i.covers place above with
  | false, false => none
  | true, false => some below
  | false, true => some above
  | true, true =>
    if toBelow < toAbove then some below
    else if toAbove < toBelow then some above
    else some (if below % 2 = 0 then below else above)

/-- The decimal exponent of the center's first digit. -/
def firstPlace (i : Interval) : Int :=
  let scaled := i.center * twoTo i.unit.toNat * tenTo 400 / twoTo (-i.unit).toNat
  ((Nat.toDigits 10 scaled).length : Int) - 401

/-- Tries grids from the coarse `place` downwards. -/
def search (i : Interval) (place : Int) : Nat → Nat × Int
  | 0 => (i.center * unitFactor i.unit place / gridFactor i.unit place, place)
  | tries + 1 =>
    match i.best? place with
    | some digits => (digits, place)
    | none => i.search (place - 1) tries

end Interval

def stripZeros (digits : Nat) (place : Int) : Nat → Nat × Int
  | 0 => (digits, place)
  | tries + 1 =>
    if digits ≠ 0 ∧ digits % 10 = 0 then stripZeros (digits / 10) (place + 1) tries
    else (digits, place)

/-- The shortest decimal `digits · 10^place` of a positive `mantissa · 2^exponent`;
seventeen digits always suffice. -/
def shortest (mantissa : Nat) (exponent : Int) : Nat × Int :=
  let i := Interval.ofFinite mantissa exponent
  let (digits, place) := i.search i.firstPlace 17
  stripZeros digits place 20

end CohortQuery.Decimal
