import CohortQuery.Cohort.Condition
import CohortQuery.Json.Fault
import CohortQuery.Limits

/-!
# Why a definition or query is refused

Every refusal comes before anything is sent. A cause is a constructor; its wording is
in `message` alone.
-/

set_option autoImplicit false

namespace CohortQuery

open CohortQuery.Text (numeral)

def CountOperator.symbol : CountOperator → String
  | atLeast => ">="
  | above => ">"
  | atMost => "<="
  | below => "<"
  | equal => "="
  | unequal => "!="

inductive DefinitionFlaw where
  | tooLarge
  | malformed (fault : Json.Fault)
  | notAnObject
  | noKind
  | rootNotGroup (kind : String)
  | tooManyLeaves
  | membersNotList
  | tooManyMembers
  | badLeaf (kind : String) (mismatch : Json.Mismatch)
  deriving DecidableEq, Repr

def DefinitionFlaw.message : DefinitionFlaw → String
  | tooLarge =>
    "definition exceeds maximum size of " ++ numeral Limits.definitionBytes ++ " bytes"
  | malformed f => f.message
  | notAnObject => "condition must be a JSON object"
  | noKind => "condition is missing 'kind'"
  | rootNotGroup kind => "root must be an 'and' or 'or' group, got '" ++ kind ++ "'"
  | tooManyLeaves => "maximum " ++ numeral Limits.leavesPerDefinition ++ " conditions allowed"
  | membersNotList => "'members' must be an array"
  | tooManyMembers =>
    "maximum " ++ numeral Limits.membersPerGroup ++ " members per group allowed"
  | badLeaf kind m => "invalid '" ++ kind ++ "' condition: " ++ m.message

inductive ValueFlaw where
  | empty
  | zero
  | absent
  | notScalar
  | notFinite
  | notANumber
  | emptyPattern
  | onlyZeroCount (operator : CountOperator) (count : Nat)
  | rangeInverted
  deriving DecidableEq, Repr

def ValueFlaw.message : ValueFlaw → String
  | empty => "must not be empty"
  | zero => "must be at least 1"
  | absent => "value is required"
  | notScalar => "expected a string, number or boolean"
  | notFinite => "expected a finite number"
  | notANumber => "expected a number"
  | emptyPattern => "contains requires a non-empty value"
  | onlyZeroCount op n =>
    "'" ++ op.symbol ++ " " ++ numeral n ++
      "' only matches users without the event, which an event count cannot express"
  | rangeInverted => "must not be after 'to'"

inductive CompileError where
  | unsupportedCondition (kind : String)
  | invalidOperator (operator context : String)
  | invalidValue (field : String) (flaw : ValueFlaw)
  | unknownProperty (name : String)
  | invalidPropertyName (name : String)
  | invalidDefinition (flaw : DefinitionFlaw)
  | invalidTimestamp (text : String)
  | invalidBound (field text : String)
  | invalidProjectId (text : String)
  | invalidWindow (days : Nat)
  | tooDeep
  deriving DecidableEq, Repr

def CompileError.message : CompileError → String
  | unsupportedCondition kind => "Unsupported condition kind: " ++ kind
  | invalidOperator op context => "Invalid operator '" ++ op ++ "' for " ++ context
  | invalidValue field flaw => "Invalid value for '" ++ field ++ "': " ++ flaw.message
  | unknownProperty name => "Unknown property: " ++ name
  | invalidPropertyName name => "Invalid property name: " ++ name
  | invalidDefinition flaw => "Invalid definition: " ++ flaw.message
  | invalidTimestamp text => "Invalid timestamp: " ++ text
  | invalidBound field text => "Invalid timestamp: " ++ field ++ ": " ++ text
  | invalidProjectId text => "Invalid project id: " ++ text
  | invalidWindow days =>
    "Time window must be between 1 and " ++ numeral Limits.windowDays ++ " days, got " ++
      numeral days
  | tooDeep => "Condition tree exceeds maximum depth of " ++ numeral Limits.depth

end CohortQuery
