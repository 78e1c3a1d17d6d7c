import CohortQuery.Text.Hidden

/-!
# Quoted text

A text as a message shows it: between double quotes, with quotes and backslashes escaped
and every character that has no visible form of its own written as its code point.
-/

set_option autoImplicit false

namespace CohortQuery.Text

def hexNumeral (n : Nat) : List Char :=
  Nat.toDigits 16 n

def shownChar (c : Char) : List Char :=
  if c.toNat = 0 then ['\\', '0']
  else if c = '\t' then ['\\', 't']
  else if c = '\r' then ['\\', 'r']
  else if c = '\n' then ['\\', 'n']
  else if c = '"' then ['\\', '"']
  else if c = '\\' then ['\\', '\\']
  else if isHidden c then '\\' :: 'u' :: '\x7b' :: hexNumeral c.toNat ++ ['\x7d']
  else [c]

def quoted (s : String) : String :=
  String.ofList ('"' :: s.toList.flatMap shownChar ++ ['"'])

end CohortQuery.Text
