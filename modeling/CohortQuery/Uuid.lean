/-!
# UUIDs

A UUID is sixteen bytes, held as 32 hexadecimal digits. It is read without hyphens or in
groups of 8, 4, 4, 4 and 12 digits, which may stand in braces or behind `urn:uuid:`. It
is written in groups, in lower case.
-/

set_option autoImplicit false

namespace CohortQuery

def isHexDigit (c : Char) : Bool :=
  ('0' ≤ c && c ≤ '9') || ('a' ≤ c && c ≤ 'f') || ('A' ≤ c && c ≤ 'F')

structure Uuid where
  digits : List Char
  deriving DecidableEq, Repr

namespace Uuid

def ofDigits? (ds : List Char) : Option Uuid :=
  if ds.length = 32 ∧ ds.all isHexDigit then some ⟨ds.map Char.toLower⟩ else none

def ungroup? (s : List Char) : Option (List Char) :=
  let (a, s) := s.splitAt 8
  let (b, s) := s.splitAt 5
  let (c, s) := s.splitAt 5
  let (d, e) := s.splitAt 5
  match b, c, d, e with
  | '-' :: b, '-' :: c, '-' :: d, '-' :: e => some (a ++ b ++ c ++ d ++ e)
  | _, _, _, _ => none

def ofGrouped? (s : List Char) : Option Uuid :=
  if s.length = 36 then (ungroup? s).bind ofDigits? else none

def urn : List Char := "urn:uuid:".toList

def read (s : String) : Option Uuid :=
  let cs := s.toList
  if cs.length = 32 then ofDigits? cs
  else if (cs.take 9).map Char.toLower = urn then ofGrouped? (cs.drop 9)
  else
    match cs with
    | '\x7b' :: rest =>
      if rest.getLast? = some '\x7d' then ofGrouped? rest.dropLast else none
    | cs => ofGrouped? cs

def render (u : Uuid) : String :=
  let ds := u.digits
  String.ofList (ds.take 8 ++ '-' :: (ds.drop 8).take 4 ++ '-' :: (ds.drop 12).take 4 ++
    '-' :: (ds.drop 16).take 4 ++ '-' :: ds.drop 20)

end Uuid

end CohortQuery
