/-!
# Decimal numerals

Numbers as runs of ASCII digits, written and read most significant digit first.
-/

set_option autoImplicit false

namespace CohortQuery.Text

def isDigit (c : Char) : Bool :=
  '0' ≤ c && c ≤ '9'

def digitValue (c : Char) : Nat :=
  c.toNat - '0'.toNat

/-- The number that a run of digits denotes; the empty run denotes zero. -/
def ofDigits (ds : List Char) : Nat :=
  ds.foldl (fun n d => 10 * n + digitValue d) 0

def numeral (n : Nat) : String :=
  String.ofList (Nat.toDigits 10 n)

def signedNumeral (i : Int) : String :=
  if i < 0 then "-" ++ numeral i.natAbs else numeral i.natAbs

/-- The numeral of `n`, filled up on the left with zeros to at least `width` digits. -/
def paddedNumeral (width n : Nat) : String :=
  let ds := Nat.toDigits 10 n
  String.ofList (List.replicate (width - ds.length) '0' ++ ds)

/-- A nonempty run of digits and nothing else. -/
def readNumeral (s : List Char) : Option Nat :=
  if !s.isEmpty && s.all isDigit then some (ofDigits s) else none

end CohortQuery.Text
