import CohortQuery.Sql.Predicate

/-!
# Property discovery

The names of the properties that the events of a project and their persons had lately.
-/

set_option autoImplicit false

namespace CohortQuery.Discovery

open Sql (Bag RowTest Select)

def namesColumn : String :=
  "arrayJoin(arrayConcat(JSONExtractKeys(" ++ Bag.event.column ++ "), JSONExtractKeys(" ++
    Bag.person.column ++ "))) AS property"

def compileSelect (days limit : Nat) : Binder Select := do
  let days ← Binder.named "days" (.word days)
  let limit ← Binder.named "limit" (.word (max 1 limit))
  return {
    (Select.of Sql.eventsTable).distinct with
    columns := [namesColumn]
    conditions := [RowTest.inProject, .notBefore ⟨.now, some days⟩].map RowTest.render
    order := ["property"]
    limit := some limit.render }

def query (projectId : String) (days limit : Nat) : Except CompileError Query := do
  if days = 0 ∨ Limits.windowDays < days then .error (.invalidWindow days)
  else
    let b ← Bindings.forProject projectId
    match (compileSelect days limit).run.run b with
    | (.ok q, b) => return b.finish q.render
    | (.error e, _) => .error e

end CohortQuery.Discovery
