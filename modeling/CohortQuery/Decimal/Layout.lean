import CohortQuery.Decimal.Shortest

/-!
# Layouts of binary64 numbers

One number, two written forms. The plain form is always positional and has no point
when the number is whole. The marked form always shows that the number is not an
integer: it keeps `.0`, and uses an exponent from `10^16` up and below `10^-5`.
-/

set_option autoImplicit false

namespace CohortQuery.Decimal

open CohortQuery.Text (signedNumeral)

def zeros (n : Nat) : List Char := List.replicate n '0'

/-- Digits with a point before position `point`, counted from their start. -/
def positional (digits : List Char) (point : Int) (whole : List Char) : List Char :=
  if point ≤ 0 then '0' :: '.' :: zeros (-point).toNat ++ digits
  else if digits.length ≤ point.toNat then
    digits ++ zeros (point.toNat - digits.length) ++ whole
  else digits.take point.toNat ++ '.' :: digits.drop point.toNat

def scientific (digits : List Char) (power : Int) : List Char :=
  let sign := if power < 0 then [] else ['+']
  let mantissa := match digits with
    | d :: e :: rest => d :: '.' :: e :: rest
    | ds => ds
  mantissa ++ 'e' :: sign ++ (signedNumeral power).toList

def signed (negative : Bool) (s : List Char) : String :=
  String.ofList (if negative then '-' :: s else s)

end CohortQuery.Decimal

namespace CohortQuery

namespace Binary64

open Decimal

def plain : Binary64 → String
  | nan => "NaN"
  | infinite negative => signed negative "inf".toList
  | finite negative m e =>
    if m = 0 then signed negative ['0']
    else
      let (n, place) := shortest m e
      let digits := Nat.toDigits 10 n
      signed negative (positional digits (digits.length + place) [])

/-- The marked form; numbers that are not finite have none. -/
def marked? : Binary64 → Option String
  | finite negative m e =>
    if m = 0 then some (signed negative ['0', '.', '0'])
    else
      let (n, place) := shortest m e
      let digits := Nat.toDigits 10 n
      let point : Int := digits.length + place
      some (signed negative
        (if -5 < point ∧ point ≤ 16 then positional digits point ['.', '0']
         else scientific digits (point - 1)))
  | _ => none

end Binary64

end CohortQuery
