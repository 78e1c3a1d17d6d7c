import CohortQuery.Error
import CohortQuery.Json.Decode
import CohortQuery.Json.Read

/-!
# Reading a cohort definition

A node is an object with a `kind`. Its kind says whether it is a group or which leaf it
is; the nodes are read in depth-first order and the first bad one decides the error.
Leaves are counted over the whole definition.
-/

set_option autoImplicit false

namespace CohortQuery

open Json (Decoder Record Fields)

def CountOperator.decode : Decoder CountOperator :=
  Json.Decode.variant (table.map Prod.fst) (nameIn? table)

def PropertyOperator.decode : Decoder PropertyOperator :=
  Json.Decode.variant (table.map Prod.fst) (nameIn? table)

def Period.decode : Decoder Period :=
  Json.Decode.variant (table.map Prod.fst) (nameIn? table)

def Junction.decode : Decoder Junction :=
  Json.Decode.variant names ofName?

def EventFilter.record : Record EventFilter :=
  (Record.of EventFilter.mk)
    |>.field (.required "property" Json.Decode.text)
    |>.field (.defaulted "operator" (.equals false) PropertyOperator.decode)
    |>.field (.defaulted "value" none Json.Decode.operand)

def EventFilter.decode : Decoder EventFilter :=
  record.decode "EventFilter"

def EventCondition.record : Record EventCondition :=
  (Record.of EventCondition.mk)
    |>.field (.required "event_name" Json.Decode.text)
    |>.field (.required "count_operator" CountOperator.decode)
    |>.field (.required "count" Json.Decode.word32)
    |>.field (.required "time_window_days" Json.Decode.word32)
    |>.field (.defaulted "event_filters" [] (Json.Decode.list EventFilter.decode))

def PersonCondition.record : Record PersonCondition :=
  (Record.of PersonCondition.mk)
    |>.field (.required "property" Json.Decode.text)
    |>.field (.required "operator" PropertyOperator.decode)
    |>.field (.defaulted "value" none Json.Decode.operand)

def FirstTimeCondition.record : Record FirstTimeCondition :=
  (Record.of FirstTimeCondition.mk)
    |>.field (.required "event_name" Json.Decode.text)
    |>.field (.required "time_window_days" Json.Decode.word32)

def RegularCondition.record : Record RegularCondition :=
  (Record.of RegularCondition.mk)
    |>.field (.required "event_name" Json.Decode.text)
    |>.field (.required "period_type" Period.decode)
    |>.field (.required "total_periods" Json.Decode.word32)
    |>.field (.required "min_periods" Json.Decode.word32)
    |>.field (.required "time_window_days" Json.Decode.word32)
    |>.field (.defaulted "event_filters" [] (Json.Decode.list EventFilter.decode))

def MemberCondition.record : Record MemberCondition :=
  (Record.of MemberCondition.mk)
    |>.field (.required "cohort_id" Json.Decode.text)
    |>.field (.defaulted "negated" false Json.Decode.bool)

/-- An operator that is there but is none of the known ones is named as such, before
the fields are looked at. -/
def checkOperator {α : Type} (decode : Decoder α) (fields : Fields) (key context : String) :
    Except CompileError Unit :=
  match Json.get? fields key with
  | none => .ok ()
  | some v =>
    match decode v with
    | .ok _ => .ok ()
    | .error _ =>
      let shown := match v with
        | .text s => s
        | v => v.compact
      .error (.invalidOperator shown context)

def checkFilterOperators (fields : Fields) (context : String) : Except CompileError Unit :=
  match Json.get? fields "event_filters" with
  | some (.list filters) => filters.forM fun
    | .object filter => checkOperator PropertyOperator.decode filter "operator" context
    | _ => .ok ()
  | _ => .ok ()

def decodeLeaf {α : Type} (kind name : String) (r : Record α) (make : α → Leaf)
    (fields : Fields) : Except CompileError Leaf :=
  match r.decode name (.object fields) with
  | .ok c => .ok (make c)
  | .error m => .error (.invalidDefinition (.badLeaf kind m))

def readLeaf (kind : String) (fields : Fields) : Except CompileError Leaf :=
  match kind with
  | "event" => do
    checkOperator CountOperator.decode fields "count_operator" kind
    checkFilterOperators fields kind
    decodeLeaf kind "EventCondition" EventCondition.record .event fields
  | "person_property" => do
    checkOperator PropertyOperator.decode fields "operator" kind
    decodeLeaf kind "PersonPropertyCondition" PersonCondition.record .person fields
  | "first_time_event" =>
    decodeLeaf kind "FirstTimeEventCondition" FirstTimeCondition.record .firstTime fields
  | "performed_regularly" => do
    checkFilterOperators fields kind
    decodeLeaf kind "PerformedRegularlyCondition" RegularCondition.record .regular fields
  | "cohort" =>
    decodeLeaf kind "CohortCondition" MemberCondition.record .member fields
  | other => .error (.unsupportedCondition other)

/-- The state is the number of leaves so far. -/
abbrev DefinitionReader := StateT Nat (Except CompileError)

def flawed {α : Type} (flaw : DefinitionFlaw) : Except CompileError α :=
  .error (.invalidDefinition flaw)

def countLeaf : DefinitionReader Unit := fun leaves =>
  if leaves < Limits.leavesPerDefinition then .ok ((), leaves + 1)
  else flawed .tooManyLeaves

def membersOf (fields : Fields) : Except CompileError (List Json) :=
  match Json.get? fields "members" with
  | none | some .null => .ok []
  | some (.list members) =>
    if members.length ≤ Limits.membersPerGroup then .ok members else flawed .tooManyMembers
  | some _ => flawed .membersNotList

def headerOf (v : Json) : Except CompileError (String × Fields) :=
  match v with
  | .object fields =>
    match Json.get? fields "kind" with
    | some (.text kind) => .ok (kind, fields)
    | _ => flawed .noKind
  | _ => flawed .notAnObject

/-- Reads a node below which `room` more groups may stand inside one another. -/
def readNode (room : Nat) (v : Json) : DefinitionReader Condition := do
  let (kind, fields) ← headerOf v
  match Junction.ofName? kind with
  | some junction =>
    match room with
    | 0 => throw .tooDeep
    | room + 1 => do
      let members ← membersOf fields
      return .group junction (← members.mapM (readNode room))
  | none => do
    countLeaf
    return .leaf (← readLeaf kind fields)

def Definition.ofJson (v : Json) : Except CompileError Definition := do
  let (node, _) ← (readNode Limits.depth v).run 0
  match node with
  | .group junction members => return ⟨junction, members⟩
  | .leaf c => flawed (.rootNotGroup c.kind)

def Definition.read (s : String) : Except CompileError Definition :=
  if Limits.definitionBytes < s.utf8ByteSize then flawed .tooLarge
  else
    match Json.read s with
    | .ok v => ofJson v
    | .error f => flawed (.malformed f)

end CohortQuery
