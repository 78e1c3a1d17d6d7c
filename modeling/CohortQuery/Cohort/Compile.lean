import CohortQuery.Property.Compile
import CohortQuery.Sql.Person

/-!
# Compiling a cohort definition

A leaf becomes a condition on a person, a group joins the conditions of its members. The
statements of a cohort are a listing of the persons that satisfy the definition, and
three that store them under an id: `clear`, `insert` and `count`.
-/

set_option autoImplicit false

namespace CohortQuery

open Sql (Bag Column Fragment GroupTest Moment Predicate RowTest Select Start)

def checkWindow (days : Nat) : Except CompileError Unit :=
  if 1 ≤ days ∧ days ≤ Limits.windowDays then .ok () else .error (.invalidWindow days)

def checkNotBlank (field s : String) : Except CompileError Unit :=
  if Text.isBlankText s then .error (.invalidValue field .empty) else .ok ()

/-- The moment at which all time windows of the statement end. -/
def windowEnd : Binder Moment := do
  match (← get).dateTo with
  | some _ => return .bound Bindings.dateToPlaceholder
  | none => return .now

def compileScope (event : String) : Binder (List RowTest) := do
  Binder.check (checkNotBlank "event_name" event)
  return [.inProject, .equal .eventName (← Binder.fresh "coh_event" (.text event))]

def compileFilter (allowed : AllowList) (f : EventFilter) : Binder RowTest := do
  let (lookup, test) ← compileProperty allowed .event f.property f.operator f.operand
  return .property lookup test

def compileWindowed (allowed : AllowList) (event : String) (days : Nat)
    (filters : List EventFilter) : Binder (List RowTest) := do
  Binder.check (checkWindow days)
  let scope ← compileScope event
  let stop ← windowEnd
  let window ← Binder.fresh "coh_window" (.word days)
  let tests ← filters.mapM (compileFilter allowed)
  return scope ++ [.notBefore ⟨stop, some window⟩, .notAfter stop] ++ tests

def EventCondition.compile (allowed : AllowList) (c : EventCondition) : Binder Fragment := do
  if c.operator.requiresZero c.count then
    Binder.refuse (.invalidValue "count" (.onlyZeroCount c.operator c.count))
  else
    let rows ← compileWindowed allowed c.event c.windowDays c.filters
    let count ← Binder.fresh "coh_count" (.word c.count)
    return .performed rows [.count c.operator count]

def PersonCondition.compile (allowed : AllowList) (c : PersonCondition) :
    Binder Fragment := do
  let (lookup, test) ← compileProperty allowed .person c.property c.operator c.operand
  return .property lookup test

def FirstTimeCondition.compile (c : FirstTimeCondition) : Binder Fragment := do
  Binder.check (checkWindow c.windowDays)
  let rows ← compileScope c.event
  let stop ← windowEnd
  let window ← Binder.fresh "coh_window" (.word c.windowDays)
  return .performed rows [.firstNotBefore ⟨stop, some window⟩, .firstNotAfter stop]

def RegularCondition.compile (allowed : AllowList) (c : RegularCondition) :
    Binder Fragment := do
  if c.minPeriods = 0 then Binder.refuse (.invalidValue "min_periods" .zero)
  else
    let rows ← compileWindowed allowed c.event c.windowDays c.filters
    let least ← Binder.fresh "coh_min" (.word c.minPeriods)
    return .performed rows [.periods c.period least]

def MemberCondition.compile (c : MemberCondition) : Binder Fragment := do
  Binder.check (checkNotBlank "cohort_id" c.cohort)
  let cohort ← Binder.fresh "coh_cohort" (.text c.cohort)
  return .member [.inProject, .equal .cohortId cohort] c.negated

def Leaf.compile (allowed : AllowList) : Leaf → Binder Fragment
  | event c => c.compile allowed
  | person c => c.compile allowed
  | firstTime c => c.compile
  | regular c => c.compile allowed
  | member c => c.compile

mutual

def compileNode (allowed : AllowList) (room : Nat) : Condition → Binder Predicate
  | .leaf c => return .leaf (← c.compile allowed)
  | .group j members =>
    match room with
    | 0 => Binder.refuse .tooDeep
    | room + 1 => return .group j (← compileMembers allowed room members)

def compileMembers (allowed : AllowList) (room : Nat) :
    List Condition → Binder (List Predicate)
  | [] => return []
  | c :: rest => do
    let p ← compileNode allowed room c
    return p :: (← compileMembers allowed room rest)

end

def Tree.compile (allowed : AllowList) (c : Condition) : Binder Predicate :=
  compileNode allowed Limits.depth c

/-- Restricts a statement over events to the project and the predicate. -/
def restricted (q : Select) (p : Predicate) : Select :=
  (q.filter RowTest.inProject.render).filter ("(" ++ Predicate.render p ++ ")")

def listingSelect (p : Predicate) : Select :=
  (restricted
    (((Select.of Sql.eventsTable).distinct.column "distinct_id").column
      Sql.resolvedPersonColumn)
    p).orderBy "distinct_id"

def cohortName : String := "cohort_id"

def cohortPlaceholder : Placeholder := ⟨cohortName, .text⟩

def insertSelect (p : Predicate) : Select :=
  restricted
    ((((Select.of Sql.eventsTable).distinct.column "project_id").column
      cohortPlaceholder.render).column "distinct_id")
    p

def storedScope : String :=
  RowTest.inProject.render ++ " AND " ++
    (RowTest.equal .cohortId cohortPlaceholder).render

structure Materialization where
  clear : Query
  insert : Query
  count : Query
  deriving DecidableEq

namespace Materialization

def toJson (m : Materialization) : Json :=
  .object [("clear", m.clear.toJson), ("insert", m.insert.toJson), ("count", m.count.toJson)]

def clearText : String :=
  "DELETE FROM " ++ Sql.membersTable ++ " WHERE " ++ storedScope

def insertText (p : Predicate) : String :=
  "INSERT INTO " ++ Sql.membersTable ++ " (project_id, cohort_id, distinct_id) " ++
    (insertSelect p).render

def countText : String :=
  "SELECT count() FROM " ++ Sql.membersTable ++ " FINAL WHERE " ++ storedScope

/-- The values that the stored members are found by. -/
def scopeParams (params : Params) : Params :=
  params.filter fun (name, _) => name = Bindings.projectName || name = cohortName

end Materialization

namespace Definition

def compile (d : Definition) (allowed : AllowList) : Binder Predicate :=
  d.root.compile allowed

def listing (d : Definition) (allowed : AllowList) (b : Bindings) :
    Except CompileError Query :=
  match (d.compile allowed).run.run b with
  | (.ok p, b) => .ok (b.finish (listingSelect p).render)
  | (.error e, _) => .error e

def materialization (d : Definition) (cohort : String) (allowed : AllowList) (b : Bindings) :
    Except CompileError Materialization := do
  checkNotBlank cohortName cohort
  match (d.compile allowed).run.run b with
  | (.error e, _) => .error e
  | (.ok p, b) =>
    let b := (b.bindNamed cohortName (.text cohort)).2
    let scope := Materialization.scopeParams b.params
    return {
      clear := ⟨Materialization.clearText, scope⟩
      insert := b.finish (Materialization.insertText p)
      count := ⟨Materialization.countText, scope⟩ }

end Definition

end CohortQuery
