import CohortQuery.Cohort.Condition

/-!
# Writing a cohort definition

The JSON form of a definition: every node is an object with its `kind` first, a group
with its members, a leaf with all of its fields.
-/

set_option autoImplicit false

namespace CohortQuery

def encodeOperand (operand : Option Json) : Json :=
  operand.getD .null

def EventFilter.encode (f : EventFilter) : Json :=
  .object [("property", .text f.property), ("operator", .text f.operator.name),
    ("value", encodeOperand f.operand)]

def encodeFilters (filters : List EventFilter) : Json :=
  .list (filters.map EventFilter.encode)

def Leaf.fields : Leaf → Json.Fields
  | event c =>
    [("event_name", .text c.event), ("count_operator", .text c.operator.name),
      ("count", .int c.count), ("time_window_days", .int c.windowDays),
      ("event_filters", encodeFilters c.filters)]
  | person c =>
    [("property", .text c.property), ("operator", .text c.operator.name),
      ("value", encodeOperand c.operand)]
  | firstTime c =>
    [("event_name", .text c.event), ("time_window_days", .int c.windowDays)]
  | regular c =>
    [("event_name", .text c.event), ("period_type", .text c.period.name),
      ("total_periods", .int c.totalPeriods), ("min_periods", .int c.minPeriods),
      ("time_window_days", .int c.windowDays), ("event_filters", encodeFilters c.filters)]
  | member c =>
    [("cohort_id", .text c.cohort), ("negated", .bool c.negated)]

mutual

def Tree.encode : Condition → Json
  | .leaf c => .object (("kind", .text c.kind) :: c.fields)
  | .group j members =>
    .object [("kind", .text j.name), ("members", .list (Tree.encodeAll members))]

def Tree.encodeAll : List Condition → List Json
  | [] => []
  | c :: rest => c.encode :: Tree.encodeAll rest

end

def Definition.encode (d : Definition) : Json :=
  d.root.encode

end CohortQuery
