import CohortQuery.Bindings
import CohortQuery.Property.Name
import CohortQuery.Sql.Select

/-!
# Conditions of statements

What a statement asks of a row or of a group of rows, before it is written as text. Every
value stands in it as a placeholder, every property under its safe name.
-/

set_option autoImplicit false

namespace CohortQuery

def Order.symbol : Order → String
  | above => ">"
  | atLeast => ">="
  | below => "<"
  | atMost => "<="

/-- The beginning of the period in which a row lies. -/
def Period.start : Period → String
  | day => "toStartOfDay(timestamp)"
  | week => "toStartOfWeek(timestamp, 1)"
  | month => "toStartOfMonth(timestamp)"

namespace Sql

/-- The column that holds the properties of an event or of its person, as a JSON text. -/
inductive Bag where
  | event
  | person
  deriving DecidableEq, Repr

def Bag.column : Bag → String
  | event => "properties"
  | person => "person_properties"

structure Lookup where
  bag : Bag
  key : PropertyName
  deriving DecidableEq

namespace Lookup

/-- The property as text, empty where it is missing. -/
def text (l : Lookup) : String :=
  "JSONExtractString(" ++ l.bag.column ++ ", '" ++ l.key.text ++ "')"

/-- The property as it is written in the JSON text. -/
def raw (l : Lookup) : String :=
  "JSONExtractRaw(" ++ l.bag.column ++ ", '" ++ l.key.text ++ "')"

/-- The property as a number, or a text of it that spells one. -/
def number (l : Lookup) : String :=
  "coalesce(JSONExtract(" ++ l.bag.column ++ ", '" ++ l.key.text ++
    "', 'Nullable(Float64)'), toFloat64OrNull(" ++ l.text ++ "))"

end Lookup

inductive PropertyTest where
  | text (negated : Bool) (operand : Placeholder)
  | flag (negated : Bool) (operand : Placeholder)
  | number (negated : Bool) (operand : Placeholder)
  | ordered (order : Order) (operand : Placeholder)
  | like (negated : Bool) (pattern : Placeholder)
  | isSet (negated : Bool)
  deriving DecidableEq

def equality (negated : Bool) : String :=
  if negated then " != " else " = "

def PropertyTest.render (l : Lookup) : PropertyTest → String
  | text negated p => l.text ++ equality negated ++ p.render
  | flag negated p => l.raw ++ equality negated ++ p.render
  | number false p => l.number ++ " = " ++ p.render
  | number true p => "ifNull(" ++ l.number ++ " != " ++ p.render ++ ", 1)"
  | ordered order p => l.number ++ " " ++ order.symbol ++ " " ++ p.render
  | like negated p => l.text ++ (if negated then " NOT LIKE " else " LIKE ") ++ p.render
  | isSet negated =>
    "nullIf(" ++ l.raw ++ ", '') IS " ++ (if negated then "NULL" else "NOT NULL")

inductive Moment where
  | now
  | bound (p : Placeholder)
  deriving DecidableEq, Repr

def Moment.render : Moment → String
  | now => "now64(3)"
  | bound p => p.render

/-- A moment, or so many days before it. -/
structure Start where
  moment : Moment
  daysBefore : Option Placeholder
  deriving DecidableEq, Repr

def Start.render (s : Start) : String :=
  s.moment.render ++
    match s.daysBefore with
    | none => ""
    | some days => " - INTERVAL " ++ days.render ++ " DAY"

inductive Column where
  | eventName
  | distinctId
  | cohortId
  deriving DecidableEq, Repr

def Column.render : Column → String
  | eventName => "event_name"
  | distinctId => "distinct_id"
  | cohortId => "cohort_id"

inductive RowTest where
  | inProject
  | equal (column : Column) (operand : Placeholder)
  | notBefore (start : Start)
  | notAfter (stop : Moment)
  | property (lookup : Lookup) (test : PropertyTest)
  | notIdentify
  deriving DecidableEq

def RowTest.render : RowTest → String
  | inProject => "project_id = " ++ Bindings.project.render
  | equal column p => column.render ++ " = " ++ p.render
  | notBefore s => "timestamp >= " ++ s.render
  | notAfter m => "timestamp <= " ++ m.render
  | property l t => t.render l
  | notIdentify => "event_type != 'identify'"

inductive GroupTest where
  | count (operator : CountOperator) (operand : Placeholder)
  | periods (period : Period) (least : Placeholder)
  | firstNotBefore (start : Start)
  | firstNotAfter (stop : Moment)
  deriving DecidableEq

def GroupTest.render : GroupTest → String
  | count op p => "count() " ++ op.symbol ++ " " ++ p.render
  | periods period p => "uniqExact(" ++ period.start ++ ") >= " ++ p.render
  | firstNotBefore s => "min(timestamp) >= " ++ s.render
  | firstNotAfter m => "min(timestamp) <= " ++ m.render

def eventsTable : String := "events FINAL"

def membersTable : String := "cohort_members"

/-- What a leaf of a definition becomes. -/
inductive Fragment where
  | property (lookup : Lookup) (test : PropertyTest)
  /-- The events that pass the tests, grouped by person, in groups that pass theirs. -/
  | performed (rows : List RowTest) (groups : List GroupTest)
  | member (rows : List RowTest) (negated : Bool)

namespace Fragment

def performedSelect (rows : List RowTest) (groups : List GroupTest) : Select :=
  { Select.of eventsTable with
    columns := ["distinct_id"]
    conditions := rows.map RowTest.render
    groups := ["distinct_id"]
    groupConditions := groups.map GroupTest.render }

def memberSelect (rows : List RowTest) : Select :=
  { Select.of membersTable with
    columns := ["distinct_id"]
    conditions := rows.map RowTest.render }

def isAmong (q : Select) : String :=
  "distinct_id IN (" ++ q.render ++ ")"

def render : Fragment → String
  | property l t => t.render l
  | performed rows groups => isAmong (performedSelect rows groups)
  | member rows false => isAmong (memberSelect rows)
  | member rows true => "NOT (" ++ isAmong (memberSelect rows) ++ ")"

end Fragment

abbrev Predicate := Tree Fragment

def junctionText : Junction → String
  | .and => " AND "
  | .or => " OR "

def emptyText : Junction → String
  | .and => "1 = 1"
  | .or => "1 = 0"

/-- Several members stand in parentheses, so that a group keeps its meaning in any other. -/
def groupText (j : Junction) : List String → String
  | [] => emptyText j
  | [s] => s
  | s :: t :: rest => "(" ++ Text.join (junctionText j) (s :: t :: rest) ++ ")"

mutual

def Predicate.render : Predicate → String
  | .leaf f => f.render
  | .group j members => groupText j (Predicate.renderAll members)

def Predicate.renderAll : List Predicate → List String
  | [] => []
  | p :: rest => Predicate.render p :: Predicate.renderAll rest

end

end Sql

end CohortQuery
