/-!
# Property names

The name of a property is written into the text of a query, between single quotes, and
so it is of a type that admits safe names only: one to two hundred ASCII characters,
the first a letter, `_` or `$`, the others letters, digits or one of `_ $ . : -`.
-/

set_option autoImplicit false

namespace CohortQuery

def isAsciiLetter (c : Char) : Bool :=
  ('a' ≤ c && c ≤ 'z') || ('A' ≤ c && c ≤ 'Z')

namespace PropertyName

def startsName (c : Char) : Bool :=
  isAsciiLetter c || c = '_' || c = '$'

def continuesName (c : Char) : Bool :=
  startsName c || ('0' ≤ c && c ≤ '9') || c = '.' || c = ':' || c = '-'

def isSafe : List Char → Bool
  | [] => false
  | c :: rest => startsName c && rest.all continuesName && rest.length < 200

end PropertyName

structure PropertyName where
  text : String
  safe : PropertyName.isSafe text.toList = true
  deriving DecidableEq

def PropertyName.ofText? (s : String) : Option PropertyName :=
  if h : isSafe s.toList = true then some ⟨s, h⟩ else none

end CohortQuery
