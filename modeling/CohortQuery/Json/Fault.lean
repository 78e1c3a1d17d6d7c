import CohortQuery.Decimal.Layout
import CohortQuery.Text.Join
import CohortQuery.Text.Quoted

/-!
# What can be wrong with a JSON text or value

A `Mismatch` says that a value is not of the shape that its reader asks for. A `Fault`
is an error in a text, together with its position there.
-/

set_option autoImplicit false

namespace CohortQuery.Json

open CohortQuery.Text (numeral signedNumeral quoted)

/-- The value that was met, as far as a message names it. -/
inductive Found where
  | null
  | bool (value : Bool)
  | integer (value : Int)
  | real (value : Binary64)
  | text (value : String)
  | sequence
  | map
  deriving DecidableEq, Repr

def Found.describe : Found → String
  | null => "null"
  | bool true => "boolean `true`"
  | bool false => "boolean `false`"
  | integer i => "integer `" ++ signedNumeral i ++ "`"
  | real x => "floating point `" ++ x.marked?.getD "null" ++ "`"
  | text s => "string " ++ quoted s
  | sequence => "sequence"
  | map => "map"

inductive Mismatch where
  | type (found : Found) (expected : String)
  | value (found : Found) (expected : String)
  | length (found : Nat) (expected : String)
  | missingField (name : String)
  | duplicateField (name : String)
  | unknownVariant (name : String) (known : List String)
  deriving DecidableEq, Repr

/-- The known names as a message lists them; two are joined by `or`. -/
def listing : List String → String
  | [] => "there are no variants"
  | [a] => "expected `" ++ a ++ "`"
  | [a, b] => "expected `" ++ a ++ "` or `" ++ b ++ "`"
  | names => "expected one of " ++ Text.join ", " (names.map fun n => "`" ++ n ++ "`")

def Mismatch.message : Mismatch → String
  | type found expected => "invalid type: " ++ found.describe ++ ", expected " ++ expected
  | value found expected => "invalid value: " ++ found.describe ++ ", expected " ++ expected
  | length found expected => "invalid length " ++ numeral found ++ ", expected " ++ expected
  | missingField name => "missing field `" ++ name ++ "`"
  | duplicateField name => "duplicate field `" ++ name ++ "`"
  | unknownVariant name known => "unknown variant `" ++ name ++ "`, " ++ listing known

/-- Lines count from one; the column is the number of bytes of the line before the
position. -/
structure Position where
  line : Nat
  column : Nat
  deriving DecidableEq, Repr

namespace Position

def start : Position := ⟨1, 0⟩

def past (p : Position) (c : Char) : Position :=
  if c = '\n' then ⟨p.line + 1, 0⟩ else ⟨p.line, p.column + c.utf8Size⟩

def pastAll (p : Position) (cs : List Char) : Position :=
  cs.foldl past p

def into (p : Position) (c : Char) : Position :=
  if c = '\n' then ⟨p.line + 1, 0⟩ else ⟨p.line, p.column + 1⟩

/-- Behind so many bytes, which may end inside a character. -/
def pastBytes (p : Position) (count : Nat) : List Char → Position
  | [] => p
  | c :: cs =>
    if c.utf8Size ≤ count then (p.past c).pastBytes (count - c.utf8Size) cs
    else ⟨p.line, p.column + count⟩

end Position

inductive Cause where
  | endInValue
  | endInList
  | endInObject
  | endInText
  | noValue
  | badWord
  | noColon
  | noListEnd
  | noObjectEnd
  | badKey
  | trailingComma
  | trailingCharacters
  | badNumber
  | numberRange
  | badEscape
  | cutEscape
  | loneSurrogate
  | controlCharacter
  | tooNested
  | mismatch (m : Mismatch)
  deriving DecidableEq, Repr

def Cause.message : Cause → String
  | endInValue => "EOF while parsing a value"
  | endInList => "EOF while parsing a list"
  | endInObject => "EOF while parsing an object"
  | endInText => "EOF while parsing a string"
  | noValue => "expected value"
  | badWord => "expected ident"
  | noColon => "expected `:`"
  | noListEnd => "expected `,` or `]`"
  | noObjectEnd => "expected `,` or `\x7d`"
  | badKey => "key must be a string"
  | trailingComma => "trailing comma"
  | trailingCharacters => "trailing characters"
  | badNumber => "invalid number"
  | numberRange => "number out of range"
  | badEscape => "invalid escape"
  | cutEscape => "unexpected end of hex escape"
  | loneSurrogate => "lone leading surrogate in hex escape"
  | controlCharacter =>
    "control character (\\u0000-\\u001F) found while parsing a string"
  | tooNested => "recursion limit exceeded"
  | mismatch m => m.message

structure Fault where
  cause : Cause
  position : Position
  deriving DecidableEq, Repr

def Fault.message (f : Fault) : String :=
  f.cause.message ++ " at line " ++ numeral f.position.line ++
    " column " ++ numeral f.position.column

end CohortQuery.Json
