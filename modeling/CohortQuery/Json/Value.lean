import CohortQuery.Decimal.Layout

/-!
# JSON values

Objects are lists of fields in the order of insertion. Setting a field that is already
there keeps its place. `compact` writes a value without any space, `indented` with two
blanks per level.
-/

set_option autoImplicit false

namespace CohortQuery

inductive Json.Number where
  | integer (value : Int)
  | real (value : Binary64)
  deriving DecidableEq, Repr

inductive Json where
  | null
  | bool (value : Bool)
  | number (value : Json.Number)
  | text (value : String)
  | list (items : List Json)
  | object (fields : List (String × Json))
  deriving Repr, Inhabited

namespace Json

abbrev Fields := List (String × Json)

def Fields.set (fields : Fields) (key : String) (value : Json) : Fields :=
  match fields with
  | [] => [(key, value)]
  | (k, v) :: rest =>
    if k = key then (k, value) :: rest else (k, v) :: Fields.set rest key value

def get? (fields : Fields) (key : String) : Option Json :=
  fields.lookup key

def int (i : Int) : Json := .number (.integer i)

def ofOption {α : Type} (encode : α → Json) : Option α → Json
  | none => .null
  | some a => encode a

def hexDigit (n : Nat) : Char :=
  if n < 10 then Char.ofNat (48 + n) else Char.ofNat (87 + n)

def escapeChar (c : Char) : List Char :=
  if c = '"' then ['\\', '"']
  else if c = '\\' then ['\\', '\\']
  else if c.toNat = 8 then ['\\', 'b']
  else if c.toNat = 12 then ['\\', 'f']
  else if c = '\n' then ['\\', 'n']
  else if c = '\r' then ['\\', 'r']
  else if c = '\t' then ['\\', 't']
  else if c.toNat < 32 then
    ['\\', 'u', '0', '0', hexDigit (c.toNat / 16), hexDigit (c.toNat % 16)]
  else [c]

def quoteChars (s : List Char) : List Char :=
  '"' :: s.flatMap escapeChar ++ ['"']

def quote (s : String) : String :=
  String.ofList (quoteChars s.toList)

/-- A number that is not finite has no numeral and is written `null`. -/
def Number.render : Number → String
  | .integer i => Text.signedNumeral i
  | .real x => x.marked?.getD "null"

mutual

def compact : Json → String
  | .null => "null"
  | .bool true => "true"
  | .bool false => "false"
  | .number n => n.render
  | .text s => quote s
  | .list items => "[" ++ compactItems items ++ "]"
  | .object fields => "\x7b" ++ compactFields fields ++ "\x7d"

def compactItems : List Json → String
  | [] => ""
  | [v] => compact v
  | v :: w :: rest => compact v ++ "," ++ compactItems (w :: rest)

def compactFields : List (String × Json) → String
  | [] => ""
  | [(k, v)] => quote k ++ ":" ++ compact v
  | (k, v) :: f :: rest => quote k ++ ":" ++ compact v ++ "," ++ compactFields (f :: rest)

end

def lineBreak (level : Nat) : String :=
  String.ofList ('\n' :: List.replicate (2 * level) ' ')

mutual

def indentedAt (level : Nat) : Json → String
  | .list (v :: rest) =>
    "[" ++ lineBreak (level + 1) ++ indentedItems (level + 1) (v :: rest) ++
      lineBreak level ++ "]"
  | .object (f :: rest) =>
    "\x7b" ++ lineBreak (level + 1) ++ indentedFields (level + 1) (f :: rest) ++
      lineBreak level ++ "\x7d"
  | .null => "null"
  | .bool true => "true"
  | .bool false => "false"
  | .number n => n.render
  | .text s => quote s
  | .list [] => "[]"
  | .object [] => "\x7b\x7d"

def indentedItems (level : Nat) : List Json → String
  | [] => ""
  | [v] => indentedAt level v
  | v :: w :: rest =>
    indentedAt level v ++ "," ++ lineBreak level ++ indentedItems level (w :: rest)

def indentedFields (level : Nat) : List (String × Json) → String
  | [] => ""
  | [(k, v)] => quote k ++ ": " ++ indentedAt level v
  | (k, v) :: f :: rest =>
    quote k ++ ": " ++ indentedAt level v ++ "," ++ lineBreak level ++
      indentedFields level (f :: rest)

end

def indented (v : Json) : String := indentedAt 0 v

end Json

end CohortQuery
