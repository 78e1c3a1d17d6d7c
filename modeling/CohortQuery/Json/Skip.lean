import CohortQuery.Json.Token

/-!
# Skipping a JSON value

A value that nobody asks for is passed over. Only its shape is looked at: numbers may be
out of range, escapes may leave half a pair, and containers may stand in one another to
any depth.
-/

set_option autoImplicit false

namespace CohortQuery.Json

inductive Enclosure where
  | list
  | object

inductive SkipState where
  | value
  | opened (inside : Enclosure)
  | closedItem (inside : Enclosure)
  | key
  | colon
  | done

/-- The enclosures around the next token, the innermost first. -/
structure Skipping where
  around : List Enclosure
  state : SkipState

namespace Skipping

def start : Skipping := ⟨[], .value⟩

def fail {α : Type} (cause : Cause) (p : Position) : Except Fault α :=
  .error ⟨cause, p⟩

def close (around : List Enclosure) : Skipping :=
  match around with
  | [] => ⟨[], .done⟩
  | e :: _ => ⟨around, .closedItem e⟩

def takeValue (s : Skipping) (t : Token) : Except Fault Skipping :=
  match t.lexeme with
  | .null | .bool _ | .number _ | .text _ => .ok (close s.around)
  | .openList => .ok ⟨.list :: s.around, .opened .list⟩
  | .openObject => .ok ⟨.object :: s.around, .opened .object⟩
  | .broken _ skipped => .error skipped
  | .closeList | .closeObject | .comma | .colon | .stray => fail .noValue t.peek

def takeKey (s : Skipping) (t : Token) : Except Fault Skipping :=
  match t.lexeme with
  | .text _ => .ok ⟨s.around, .colon⟩
  | .broken _ skipped => if t.quotes then .error skipped else fail .badKey t.peek
  | _ => fail .badKey t.peek

def takeNext (s : Skipping) : Enclosure → Token → Except Fault Skipping
  | .list, t => s.takeValue t
  | .object, t => s.takeKey t

def closes : Enclosure → Lexeme → Bool
  | .list, .closeList => true
  | .object, .closeObject => true
  | _, _ => false

def take (s : Skipping) (t : Token) : Except Fault Skipping :=
  match s.state with
  | .value => s.takeValue t
  | .opened e =>
    if closes e t.lexeme then .ok (close s.around.tail) else s.takeNext e t
  | .closedItem e =>
    if closes e t.lexeme then .ok (close s.around.tail)
    else
      match e, t.lexeme with
      | .list, .comma => .ok ⟨s.around, .value⟩
      | .object, .comma => .ok ⟨s.around, .key⟩
      | .list, _ => fail .noListEnd t.peek
      | .object, _ => fail .noObjectEnd t.peek
  | .key => s.takeKey t
  | .colon =>
    match t.lexeme with
    | .colon => .ok ⟨s.around, .value⟩
    | _ => fail .noColon t.peek
  | .done => fail .trailingCharacters t.peek

def endFault (s : Skipping) (stop : Position) : Fault :=
  match s.state with
  | .opened .list | .closedItem .list => ⟨.endInList, stop⟩
  | .opened .object | .closedItem .object | .key | .colon => ⟨.endInObject, stop⟩
  | .value | .done => ⟨.endInValue, stop⟩

/-- Takes tokens until the value is passed; the others are left. -/
def runOn (stop : Position) (s : Skipping) : List Token → Except Fault (List Token)
  | [] =>
    match s.state with
    | .done => .ok []
    | _ => .error (s.endFault stop)
  | t :: ts =>
    match s.state with
    | .done => .ok (t :: ts)
    | _ => do (← s.take t).runOn stop ts

end Skipping

end CohortQuery.Json
