import CohortQuery.Json.Value

/-!
# Parameters of a query

Values travel beside the text of a query, under names. The text refers to a value by a
placeholder that shows its name and type.
-/

set_option autoImplicit false

namespace CohortQuery

inductive ParamType where
  | text
  | word
  | integer
  | real
  | uuid
  | time
  deriving DecidableEq, Repr

def ParamType.render : ParamType → String
  | text => "String"
  | word => "UInt32"
  | integer => "Int64"
  | real => "Float64"
  | uuid => "UUID"
  | time => "DateTime64(3)"

inductive Value where
  | text (s : String)
  | word (n : Nat)
  | integer (i : Int)
  | real (x : Binary64)
  | uuid (s : String)
  | time (s : String)
  deriving DecidableEq, Repr

namespace Value

def type : Value → ParamType
  | text _ => .text
  | word _ => .word
  | integer _ => .integer
  | real _ => .real
  | uuid _ => .uuid
  | time _ => .time

def toJson : Value → Json
  | text s | uuid s | time s => .text s
  | word n => .int n
  | integer i => .int i
  | real x => if x.isFinite then .number (.real x) else .null

end Value

structure Placeholder where
  name : String
  type : ParamType
  deriving DecidableEq, Repr

def Placeholder.render (p : Placeholder) : String :=
  "\x7b" ++ p.name ++ ":" ++ p.type.render ++ "\x7d"

/-- Named values, sorted by name. -/
abbrev Params := List (String × Value)

namespace Params

def set (params : Params) (name : String) (value : Value) : Params :=
  match params with
  | [] => [(name, value)]
  | (k, v) :: rest =>
    if name = k then (name, value) :: rest
    else if name < k then (name, value) :: (k, v) :: rest
    else (k, v) :: Params.set rest name value

def get? (params : Params) (name : String) : Option Value :=
  params.lookup name

def toJson (params : Params) : Json :=
  .object (params.map fun (name, v) => (name, v.toJson))

end Params

/-- The text of a statement with the values of its placeholders. -/
structure Query where
  sql : String
  params : Params
  deriving DecidableEq

def Query.toJson (q : Query) : Json :=
  .object [("sql", .text q.sql), ("params", q.params.toJson)]

end CohortQuery
