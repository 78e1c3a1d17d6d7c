import CohortQuery.Decimal.Binary64

/-!
# Number texts

The forms in which an operand may spell a number: an optional sign, digits with an
optional point and at least one digit, an optional exponent. The words `inf`, `infinity`
and `nan` are numbers too, in any letter case, though no finite ones.
-/

set_option autoImplicit false

namespace CohortQuery.Decimal

open CohortQuery.Text (isDigit ofDigits)

def lower (s : List Char) : List Char := s.map Char.toLower

def takeSign : List Char → Bool × List Char
  | '-' :: s => (true, s)
  | '+' :: s => (false, s)
  | s => (false, s)

/-- The exponent part: nothing, or a letter `e`, an optional sign and digits. -/
def readExponent : List Char → Option Int
  | [] => some 0
  | c :: s =>
    if c = 'e' ∨ c = 'E' then
      let (negative, ds) := takeSign s
      if !ds.isEmpty && ds.all isDigit then
        some (if negative then -(ofDigits ds : Int) else ofDigits ds)
      else none
    else none

def readUnsigned (negative : Bool) (s : List Char) : Option Binary64 :=
  let whole := s.takeWhile isDigit
  let rest := s.dropWhile isDigit
  let (fraction, rest) := match rest with
    | '.' :: r => (r.takeWhile isDigit, r.dropWhile isDigit)
    | r => ([], r)
  if whole.isEmpty && fraction.isEmpty then none
  else (readExponent rest).map fun e =>
    Binary64.ofDecimal negative (ofDigits (whole ++ fraction)) (e - fraction.length)

def readNumber (s : List Char) : Option Binary64 :=
  let (negative, body) := takeSign s
  if lower body = "nan".toList then some .nan
  else if lower body = "inf".toList ∨ lower body = "infinity".toList then
    some (.infinite negative)
  else readUnsigned negative body

end CohortQuery.Decimal
