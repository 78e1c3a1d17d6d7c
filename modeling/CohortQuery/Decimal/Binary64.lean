import CohortQuery.Decimal.Power
import CohortQuery.Text.Numeral

/-!
# Binary64 numbers

The values of the 64-bit binary format, held exactly. `finite s m e` is `±m · 2^e`
with `m < 2^53`, `-1074 ≤ e ≤ 971`, and `2^52 ≤ m` unless `e = -1074`. A quotient or
a decimal becomes the nearest such number, a tie the one with an even `m`.
-/

set_option autoImplicit false

namespace CohortQuery

open Decimal (twoTo tenTo)

inductive Binary64 where
  | nan
  | infinite (negative : Bool)
  | finite (negative : Bool) (mantissa : Nat) (exponent : Int)
  deriving DecidableEq, Repr

namespace Binary64

def isFinite : Binary64 → Bool
  | finite _ _ _ => true
  | _ => false

def zero (negative : Bool) : Binary64 :=
  finite negative 0 (-1074)

def negated : Binary64 → Binary64
  | nan => nan
  | infinite negative => infinite !negative
  | finite negative m e => finite (!negative) m e

/-- `num / den` to the nearest natural number, a tie to the even one. -/
def roundQuotient (num den : Nat) : Nat :=
  let q := num / den
  let r := num % den
  if 2 * r < den then q else if den < 2 * r then q + 1 else q + q % 2

/-- The `k` with `2^k ≤ num / den < 2^(k+1)`, for a positive quotient. -/
def leadingExponent (num den : Nat) : Int :=
  let k : Int := (num.log2 : Int) - (den.log2 : Int)
  if den * twoTo k.toNat ≤ num * twoTo (-k).toNat then k else k - 1

def ofQuotient (negative : Bool) (num den : Nat) : Binary64 :=
  if num = 0 then zero negative
  else
    let e := max (leadingExponent num den - 52) (-1074)
    let m := roundQuotient (num * twoTo (-e).toNat) (den * twoTo e.toNat)
    let (m, e) := if m = twoTo 53 then (twoTo 52, e + 1) else (m, e)
    if 971 < e then infinite negative else finite negative m e

/-- The number nearest to `±digits · 10^exponent`. Beyond `10^±400` the answer is known
without the power: infinity above, zero below. -/
def ofDecimal (negative : Bool) (digits : Nat) (exponent : Int) : Binary64 :=
  if digits = 0 then zero negative
  else
    let magnitude := exponent + (Nat.toDigits 10 digits).length
    if 400 < magnitude then infinite negative
    else if magnitude < -400 then zero negative
    else ofQuotient negative (digits * tenTo exponent.toNat) (tenTo (-exponent).toNat)

def ofInt (i : Int) : Binary64 :=
  ofQuotient (i < 0) i.natAbs 1

/-- The number nearest to the product; the factors are finite. -/
def mul : Binary64 → Binary64 → Binary64
  | finite s m e, finite t n f =>
    ofQuotient (s != t) (m * n * twoTo (e + f).toNat) (twoTo (-(e + f)).toNat)
  | _, _ => nan

/-- The number nearest to the quotient; both are finite, and the divisor is not zero. -/
def div : Binary64 → Binary64 → Binary64
  | finite s m e, finite t n f =>
    ofQuotient (s != t) (m * twoTo (e - f).toNat) (n * twoTo (f - e).toNat)
  | _, _ => nan

end Binary64

end CohortQuery
