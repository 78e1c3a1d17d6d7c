import CohortQuery.Json.Value

/-!
# Cohort definitions

A cohort is described by a tree of conditions on a person: inner nodes join their members
with `and` or `or`, leaves are of five kinds. The root of a definition is a group.
-/

set_option autoImplicit false

namespace CohortQuery

inductive Junction where
  | and
  | or
  deriving DecidableEq, Repr

/-- Conditions joined by groups. -/
inductive Tree (α : Type) where
  | leaf (condition : α)
  | group (junction : Junction) (members : List (Tree α))

instance {α : Type} : Inhabited (Tree α) := ⟨.group .and []⟩

inductive CountOperator where
  | atLeast
  | above
  | atMost
  | below
  | equal
  | unequal
  deriving DecidableEq, Repr

namespace CountOperator

def holds : CountOperator → Nat → Nat → Bool
  | atLeast, c, n => n ≤ c
  | above, c, n => n < c
  | atMost, c, n => c ≤ n
  | below, c, n => c < n
  | equal, c, n => c = n
  | unequal, c, n => c ≠ n

/-- Whether only a count of zero satisfies the comparison, if any count does. -/
def requiresZero : CountOperator → Nat → Bool
  | equal, n | atMost, n => n = 0
  | below, n => n ≤ 1
  | atLeast, _ | above, _ | unequal, _ => false

end CountOperator

inductive Order where
  | above
  | atLeast
  | below
  | atMost
  deriving DecidableEq, Repr

/-- The comparisons of a property with an operand. The first, third and fourth come with
their negations. -/
inductive PropertyOperator where
  | equals (negated : Bool)
  | ordered (order : Order)
  | contains (negated : Bool)
  | isSet (negated : Bool)
  deriving DecidableEq, Repr

inductive Period where
  | day
  | week
  | month
  deriving DecidableEq, Repr

structure EventFilter where
  property : String
  operator : PropertyOperator
  operand : Option Json

def EventFilter.equal (property value : String) : EventFilter :=
  ⟨property, .equals false, some (.text value)⟩

/-- The event happened so many times in the last `windowDays` days. -/
structure EventCondition where
  event : String
  operator : CountOperator
  count : Nat
  windowDays : Nat
  filters : List EventFilter

structure PersonCondition where
  property : String
  operator : PropertyOperator
  operand : Option Json

/-- The event happened for the first time in the last `windowDays` days. -/
structure FirstTimeCondition where
  event : String
  windowDays : Nat

/-- The event happened in at least `minPeriods` different periods of the last `windowDays`
days. The number of periods in total is kept for display and has no meaning here. -/
structure RegularCondition where
  event : String
  period : Period
  totalPeriods : Nat
  minPeriods : Nat
  windowDays : Nat
  filters : List EventFilter

structure MemberCondition where
  cohort : String
  negated : Bool

inductive Leaf where
  | event (c : EventCondition)
  | person (c : PersonCondition)
  | firstTime (c : FirstTimeCondition)
  | regular (c : RegularCondition)
  | member (c : MemberCondition)

abbrev Condition := Tree Leaf

/-- The root group of a definition. -/
structure Definition where
  junction : Junction
  members : List Condition

def Definition.root (d : Definition) : Condition :=
  .group d.junction d.members

def Junction.name : Junction → String
  | and => "and"
  | or => "or"

def Junction.ofName? : String → Option Junction
  | "and" | "AND" => some .and
  | "or" | "OR" => some .or
  | _ => none

def Junction.names : List String := ["AND", "and", "OR", "or"]

def nameIn? {α : Type} (table : List (String × α)) (s : String) : Option α :=
  table.lookup s

namespace CountOperator

def table : List (String × CountOperator) :=
  [("gte", atLeast), ("gt", above), ("lte", atMost), ("lt", below), ("eq", equal),
    ("neq", unequal)]

def name : CountOperator → String
  | atLeast => "gte"
  | above => "gt"
  | atMost => "lte"
  | below => "lt"
  | equal => "eq"
  | unequal => "neq"

end CountOperator

def Order.name : Order → String
  | above => "gt"
  | atLeast => "gte"
  | below => "lt"
  | atMost => "lte"

namespace PropertyOperator

def table : List (String × PropertyOperator) :=
  [("eq", equals false), ("neq", equals true), ("gt", ordered .above),
    ("gte", ordered .atLeast), ("lt", ordered .below), ("lte", ordered .atMost),
    ("contains", contains false), ("not_contains", contains true), ("is_set", isSet false),
    ("is_not_set", isSet true)]

def name : PropertyOperator → String
  | equals false => "eq"
  | equals true => "neq"
  | ordered o => o.name
  | contains false => "contains"
  | contains true => "not_contains"
  | isSet false => "is_set"
  | isSet true => "is_not_set"

end PropertyOperator

namespace Period

def table : List (String × Period) :=
  [("day", day), ("week", week), ("month", month)]

def name : Period → String
  | day => "day"
  | week => "week"
  | month => "month"

end Period

def Leaf.kind : Leaf → String
  | event _ => "event"
  | person _ => "person_property"
  | firstTime _ => "first_time_event"
  | regular _ => "performed_regularly"
  | member _ => "cohort"

def Tree.kind : Condition → String
  | leaf c => c.kind
  | group j _ => j.name

end CohortQuery
