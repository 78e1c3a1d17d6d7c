import CohortQuery.Json.Decode
import CohortQuery.Json.Read
import CohortQuery.Json.Skip

/-!
# Typed reading with positions

A record is read straight from the tokens of a text, so that a value of the wrong type is
reported with its position and before any error further on. The fields come out as JSON
values that their decoders accept. No field may come twice.
-/

set_option autoImplicit false

namespace CohortQuery.Json.Located

/-- What is read of a text: the tokens that are left, before the end of the text. -/
structure Rest where
  tokens : List Token
  stop : Position

abbrev Reader (α : Type) := Rest → Except Fault (α × Rest)

def fail {α : Type} (cause : Cause) (p : Position) : Except Fault α :=
  .error ⟨cause, p⟩

def Rest.start (r : Rest) : Position :=
  match r.tokens with
  | t :: _ => t.start
  | [] => r.stop

def value (outer : Nat) : Reader Json := fun r => do
  let (v, ts) ← (Reading.start outer).runOn r.stop r.tokens
  return (v, ⟨ts, r.stop⟩)

def skip : Reader Unit := fun r => do
  return ((), ⟨← Skipping.start.runOn r.stop r.tokens, r.stop⟩)

/-- The scalar that a token is, or an empty container for an opening bracket. -/
def shapeOf (t : Token) : Except Fault Json :=
  match t.lexeme with
  | .null => .ok .null
  | .bool b => .ok (.bool b)
  | .number n => n.map .number
  | .text s => s.map .text
  | .openList => .ok (.list [])
  | .openObject => .ok (.object [])
  | .broken read _ => .error read
  | .closeList | .closeObject | .comma | .colon | .stray => fail .noValue t.peek

/-- A mismatch is reported behind a scalar and before a container. -/
def mismatchAt (t : Token) (m : Mismatch) : Fault :=
  match t.lexeme with
  | .openList | .openObject => ⟨.mismatch m, t.start⟩
  | _ => ⟨.mismatch m, t.stop⟩

def scalar {α : Type} (decode : Decoder α) : Reader Json := fun r =>
  match r.tokens with
  | [] => fail .endInValue r.stop
  | t :: ts => do
    let v ← shapeOf t
    match decode v with
    | .ok _ => return (v, ⟨ts, r.stop⟩)
    | .error m => .error (mismatchAt t m)

/-- How the fields of an object are read: the known ones once, the others as they come. A
field that is read as none is left out. -/
structure FieldReader where
  known : List String
  read : String → Reader (Option Json)

def colon : Reader Unit := fun r =>
  match r.tokens with
  | [] => fail .endInObject r.stop
  | t :: ts =>
    match t.lexeme with
    | .colon => .ok ((), ⟨ts, r.stop⟩)
    | _ => fail .noColon t.peek

/-- A second field of one name is noticed behind its name; an end of the object that follows
at once is passed. -/
def duplicateFault (key : String) (r : Rest) : Fault :=
  let p := match r.tokens with
    | t :: _ =>
      match t.lexeme with
      | .closeObject => t.stop
      | _ => t.start
    | [] => r.stop
  ⟨.mismatch (.duplicateField key), p⟩

def key (t : Token) : Except Fault String :=
  match t.lexeme with
  | .text s => s
  | .broken read _ => if t.quotes then .error read else fail .badKey t.peek
  | _ => fail .badKey t.peek

def oneField (f : FieldReader) (fields : Fields) (t : Token) (r : Rest) :
    Except Fault (Fields × Rest) := do
  let key ← key t
  if f.known.contains key && (get? fields key).isSome then .error (duplicateFault key r)
  else
    let ((), r) ← colon r
    let (v, r) ← f.read key r
    return (match v with
      | some v => fields.set key v
      | none => fields, r)

/-- The fields behind an opening brace; `turns` is at least the number of tokens left. -/
def fieldsFrom (f : FieldReader) (turns : Nat) (first : Bool) (fields : Fields) (r : Rest) :
    Except Fault (Fields × Rest) :=
  match turns, r.tokens with
  | 0, _ | _, [] => fail .endInObject r.stop
  | turns + 1, t :: ts =>
    match t.lexeme, first with
    | .closeObject, _ => .ok (fields, ⟨ts, r.stop⟩)
    | _, true => do
      let (fields, r) ← oneField f fields t ⟨ts, r.stop⟩
      fieldsFrom f turns false fields r
    | .comma, false =>
      match ts with
      | [] => fail .endInValue r.stop
      | k :: ts =>
        match k.lexeme with
        | .closeObject => fail .trailingComma k.peek
        | _ => do
          let (fields, r) ← oneField f fields k ⟨ts, r.stop⟩
          fieldsFrom f turns false fields r
    | _, false => fail .noObjectEnd t.peek

def objectFields (f : FieldReader) : Reader Fields := fun r =>
  fieldsFrom f (r.tokens.length + 1) true [] r

/-- A record all of whose fields are scalars; `complete` if a list has to hold them all. -/
structure Shape where
  name : String
  fields : List (String × (Json → Except Mismatch Unit))
  complete : Bool

namespace Shape

def size (s : Shape) : Nat := s.fields.length

def reader (s : Shape) : FieldReader where
  known := s.fields.map Prod.fst
  read key := fun r =>
    match s.fields.lookup key with
    | some decode => do
      let (v, r) ← scalar decode r
      return (some v, r)
    | none => do
      let ((), r) ← skip r
      return (none, r)

/-- What is left when the list ends, or has no place for what follows. -/
def listEnd (r : Rest) : Except Fault Rest :=
  match r.tokens with
  | [] => fail .endInList r.stop
  | t :: ts =>
    match t.lexeme with
    | .closeList => .ok ⟨ts, r.stop⟩
    | .comma =>
      match ts with
      | [] => fail .trailingCharacters r.stop
      | u :: _ =>
        match u.lexeme with
        | .closeList => fail .trailingComma u.peek
        | _ => fail .trailingCharacters u.peek
    | _ => fail .trailingCharacters t.peek

/-- What comes next in a list: an item, or its end with the position behind the bracket. -/
inductive Next where
  | item (r : Rest)
  | done (behind : Position) (r : Rest)

def nextItem (first : Bool) (r : Rest) : Except Fault Next :=
  match r.tokens with
  | [] => fail .endInList r.stop
  | t :: ts =>
    match t.lexeme, first with
    | .closeList, _ => .ok (.done t.stop ⟨ts, r.stop⟩)
    | _, true => .ok (.item r)
    | .comma, false =>
      match ts with
      | [] => fail .endInValue r.stop
      | u :: _ =>
        match u.lexeme with
        | .closeList => fail .trailingComma u.peek
        | _ => .ok (.item ⟨ts, r.stop⟩)
    | _, false => fail .noListEnd t.peek

def tooShort (s : Shape) (count : Nat) : Mismatch :=
  .length count ("struct " ++ s.name ++ " with " ++ Text.numeral s.size ++ " elements")

def itemsFrom (s : Shape) (count : Nat) (fields : Fields) (r : Rest) :
    List (String × (Json → Except Mismatch Unit)) → Except Fault (Fields × Rest)
  | [] => do return (fields, ← listEnd r)
  | (name, decode) :: more => do
    match ← nextItem (count = 0) r with
    | .done behind r =>
      if s.complete then fail (.mismatch (s.tooShort count)) behind else return (fields, r)
    | .item r =>
      let (v, r) ← scalar decode r
      s.itemsFrom (count + 1) (fields.set name v) r more

def read (s : Shape) : Reader Fields := fun r =>
  match r.tokens with
  | [] => fail .endInValue r.stop
  | t :: ts => do
    match ← shapeOf t with
    | .object _ => objectFields s.reader ⟨ts, r.stop⟩
    | .list _ => s.itemsFrom 0 [] ⟨ts, r.stop⟩ s.fields
    | v => .error (mismatchAt t (.type v.found ("struct " ++ s.name)))

end Shape

def whole {α : Type} (reader : Reader α) (s : String) : Except Fault α := do
  let ts := tokens s
  let (a, r) ← reader ⟨ts.list, ts.stop⟩
  match r.tokens with
  | [] => return a
  | t :: _ => fail .trailingCharacters t.peek

end CohortQuery.Json.Located
