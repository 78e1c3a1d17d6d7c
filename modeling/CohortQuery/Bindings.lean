import CohortQuery.Error
import CohortQuery.Params
import CohortQuery.Time.Stamp
import CohortQuery.Uuid

/-!
# Bindings of one statement

While a statement is compiled its values are bound to names: fixed ones, and fresh ones
that end in the number of fresh names before. What was bound before an error stays bound.
-/

set_option autoImplicit false

namespace CohortQuery

structure Bindings where
  params : Params
  counter : Nat
  /-- The store form of the date at which time windows end, if it is not now. -/
  dateTo : Option String

namespace Bindings

def projectName : String := "project_id"

def dateToName : String := "coh_date_to"

def project : Placeholder := ⟨projectName, .uuid⟩

def dateToPlaceholder : Placeholder := ⟨dateToName, .time⟩

def bindNamed (name : String) (v : Value) (b : Bindings) : Placeholder × Bindings :=
  (⟨name, v.type⟩, { b with params := b.params.set name v })

def freshName (stem : String) (n : Nat) : String :=
  stem ++ "_" ++ Text.numeral n

def bind (stem : String) (v : Value) (b : Bindings) : Placeholder × Bindings :=
  bindNamed (freshName stem b.counter) v { b with counter := b.counter + 1 }

def forProject (projectId : String) : Except CompileError Bindings :=
  match Uuid.read (Text.trim projectId) with
  | some u => .ok (bindNamed projectName (.uuid u.render) ⟨[], 0, none⟩).2
  | none => .error (.invalidProjectId projectId)

def endingAt (date : String) (b : Bindings) : Except CompileError Bindings :=
  match Time.startText date with
  | some t => .ok { (b.bindNamed dateToName (.time t)).2 with dateTo := some t }
  | none => .error (.invalidTimestamp date)

def start (projectId : String) (dateTo : Option String) : Except CompileError Bindings := do
  let b ← forProject projectId
  match dateTo with
  | some date => b.endingAt date
  | none => return b

def finish (sql : String) (b : Bindings) : Query :=
  ⟨sql, b.params⟩

end Bindings

abbrev Binder := ExceptT CompileError (StateM Bindings)

namespace Binder

def fresh (stem : String) (v : Value) : Binder Placeholder :=
  modifyGet (Bindings.bind stem v)

def named (name : String) (v : Value) : Binder Placeholder :=
  modifyGet (Bindings.bindNamed name v)

def refuse {α : Type} (e : CompileError) : Binder α :=
  throw e

def check {α : Type} (r : Except CompileError α) : Binder α :=
  liftExcept r
where
  liftExcept : Except CompileError α → Binder α
    | .ok a => pure a
    | .error e => throw e

end Binder

end CohortQuery
