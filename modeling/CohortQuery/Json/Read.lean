import CohortQuery.Json.Token

/-!
# Reading a JSON value

A value is built by a machine that takes the tokens one after the other. It holds the
containers that are still open, the innermost first, and what may come next. There may
be 127 open containers and not one more. Of two fields with one key the last value stays,
in the place of the first.
-/

set_option autoImplicit false

namespace CohortQuery.Json

/-- An open container. Items are held last first; a field waits for its value. -/
inductive Frame where
  | list (items : List Json)
  | object (fields : Fields) (key : String)

inductive Awaiting where
  | value
  | firstItem
  | nextItem
  | listEnd
  | firstKey (fields : Fields)
  | nextKey (fields : Fields)
  | colon
  | objectEnd (fields : Fields)
  | nothing (result : Json)

structure Reading where
  /-- The number of containers around the text that is read. -/
  outer : Nat
  frames : List Frame
  awaiting : Awaiting

namespace Reading

def nestingLimit : Nat := 128

def start (outer : Nat) : Reading := ⟨outer, [], .value⟩

/-- A finished value goes into the innermost open container. While the container waits for
its next item or key it is the first frame; the fields of an object that waits for a key or
its end are held by what is awaited. -/
def give (r : Reading) (v : Json) : Reading :=
  match r.frames with
  | [] => ⟨r.outer, [], .nothing v⟩
  | .list items :: rest => ⟨r.outer, .list (v :: items) :: rest, .listEnd⟩
  | .object fields key :: rest => ⟨r.outer, rest, .objectEnd (fields.set key v)⟩

def depth (r : Reading) : Nat :=
  r.outer + r.frames.length

def fail {α : Type} (cause : Cause) (p : Position) : Except Fault α :=
  .error ⟨cause, p⟩

def takeValue (r : Reading) (t : Token) : Except Fault Reading :=
  match t.lexeme with
  | .null => .ok (r.give .null)
  | .bool b => .ok (r.give (.bool b))
  | .number n => n.map fun n => r.give (.number n)
  | .text s => s.map fun s => r.give (.text s)
  | .openList =>
    if r.depth + 1 < nestingLimit then .ok ⟨r.outer, .list [] :: r.frames, .firstItem⟩
    else fail .tooNested t.peek
  | .openObject =>
    if r.depth + 1 < nestingLimit then .ok ⟨r.outer, r.frames, .firstKey []⟩
    else fail .tooNested t.peek
  | .broken read _ => .error read
  | .closeList | .closeObject | .comma | .colon | .stray => fail .noValue t.peek

def closeList (r : Reading) : Reading :=
  match r.frames with
  | .list items :: rest => give ⟨r.outer, rest, .value⟩ (.list items.reverse)
  | _ => r.give (.list [])

def takeKey (r : Reading) (fields : Fields) (t : Token) : Except Fault Reading :=
  match t.lexeme with
  | .text s => s.map fun key => ⟨r.outer, .object fields key :: r.frames, .colon⟩
  | .broken read _ => if t.quotes then .error read else fail .badKey t.peek
  | _ => fail .badKey t.peek

def take (r : Reading) (t : Token) : Except Fault Reading :=
  match r.awaiting with
  | .value => r.takeValue t
  | .firstItem =>
    match t.lexeme with
    | .closeList => .ok r.closeList
    | _ => r.takeValue t
  | .nextItem =>
    match t.lexeme with
    | .closeList => fail .trailingComma t.peek
    | _ => r.takeValue t
  | .listEnd =>
    match t.lexeme with
    | .closeList => .ok r.closeList
    | .comma => .ok { r with awaiting := .nextItem }
    | _ => fail .noListEnd t.peek
  | .firstKey fields =>
    match t.lexeme with
    | .closeObject => .ok (r.give (.object fields))
    | _ => r.takeKey fields t
  | .nextKey fields =>
    match t.lexeme with
    | .closeObject => fail .trailingComma t.peek
    | _ => r.takeKey fields t
  | .colon =>
    match t.lexeme with
    | .colon => .ok { r with awaiting := .value }
    | _ => fail .noColon t.peek
  | .objectEnd fields =>
    match t.lexeme with
    | .closeObject => .ok (r.give (.object fields))
    | .comma => .ok { r with awaiting := .nextKey fields }
    | _ => fail .noObjectEnd t.peek
  | .nothing _ => fail .trailingCharacters t.peek

def finish (r : Reading) (stop : Position) : Except Fault Json :=
  match r.awaiting with
  | .nothing v => .ok v
  | .firstItem | .listEnd => fail .endInList stop
  | .firstKey _ | .objectEnd _ | .colon => fail .endInObject stop
  | .value | .nextItem | .nextKey _ => fail .endInValue stop

/-- Takes tokens until a value is finished; the others are left. -/
def runOn (stop : Position) (r : Reading) : List Token → Except Fault (Json × List Token)
  | [] => (r.finish stop).map fun v => (v, [])
  | t :: ts =>
    match r.awaiting with
    | .nothing v => .ok (v, t :: ts)
    | _ => do (← r.take t).runOn stop ts

end Reading

def read (s : String) : Except Fault Json := do
  let ts := tokens s
  let r ← ts.list.foldlM Reading.take (Reading.start 0)
  r.finish ts.stop

end CohortQuery.Json
