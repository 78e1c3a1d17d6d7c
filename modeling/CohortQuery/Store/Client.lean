import CohortQuery.Store.Exchange
import CohortQuery.Store.Template

/-!
# Single requests

A request is sent if its template needs no argument. Its reply is good if the status is
200; whoever fetches rows then looks for rows of its own kind.
-/

set_option autoImplicit false

namespace CohortQuery.Store

/-- The rows that still come, and the fault behind them if they break off. -/
structure Cursor (α : Type) where
  rows : List α
  fault : Option ClientFault

namespace Cursor

/-- The next row and what comes behind it, if there is one. -/
def next {α : Type} : Cursor α → Except ClientFault (Option (α × Cursor α))
  | ⟨row :: rows, fault⟩ => .ok (some (row, ⟨rows, fault⟩))
  | ⟨[], none⟩ => .ok none
  | ⟨[], some f⟩ => .error f

def collect {α : Type} : (missing : Nat) → Cursor α → Except ClientFault (List α)
  | 0, _ => .ok []
  | missing + 1, c => do
    match ← c.next with
    | none => return []
    | some (row, rest) => return row :: (← rest.collect missing)

end Cursor

def ofFault {α : Type} : Option ClientFault → Except ClientFault α → Except ClientFault α
  | some f, _ => .error f
  | none, r => r

def Reply.table? : Reply → Except ClientFault (Table × Option ClientFault)
  | rows t fault => .ok (t, fault)
  | refusal status body => .error (.ofStatus status body)
  | unreachable reason => .error (.unreachable reason)
  | silence => .error .silence

namespace Call

def lift {α : Type} (r : Except ClientFault α) : Call α :=
  ExceptT.mk (pure r)

def send (sql : String) (params : Params) (fetches : Bool) :
    Call (Table × Option ClientFault) := do
  let sql ← lift (Template.expand sql)
  ExceptT.mk (.ask ⟨sql, params, fetches⟩ fun reply => .done reply.table?)

/-- The reply is awaited to its end, whatever rows it has. -/
def execute (q : Query) : Call Unit := do
  match ← send q.sql q.params false with
  | (_, none) => return ()
  | (_, some f) => lift (.error f)

/-- The rows that came before the stream ended, and the fault that ended it. -/
def stream {α : Type} (kind : Table → Option (List α)) (q : Query) :
    Call (List α × Option ClientFault) := do
  let (table, fault) ← send q.sql q.params true
  match kind table with
  | some rows => return (rows, fault)
  | none => lift (.error (.badReply "Could not read columns header"))

def fetchAll {α : Type} (kind : Table → Option (List α)) (q : Query) : Call (List α) := do
  match ← stream kind q with
  | (rows, none) => return rows
  | (_, some f) => lift (.error f)

/-- The first row; what comes behind it is not looked at. -/
def fetchOptional {α : Type} (kind : Table → Option (List α)) (q : Query) :
    Call (Option α) := do
  match ← stream kind q with
  | (row :: _, _) => return some row
  | ([], none) => return none
  | ([], some f) => lift (.error f)

def fetchOne {α : Type} (kind : Table → Option (List α)) (q : Query) : Call α := do
  match ← fetchOptional kind q with
  | some row => return row
  | none => lift (.error .noRows)

/-- The rows of a stream until there are `limit` of them. Nothing is sent if none is missing. -/
def fetchFirst {α : Type} (limit : Nat) (kind : Table → Option (List α)) (q : Query) :
    Call (List α) := do
  if limit = 0 then return []
  else
    let (rows, fault) ← stream kind q
    lift (Cursor.collect limit ⟨rows, fault⟩)

end Call

namespace Operation

def lift {α : Type} (r : Except StoreError α) : Operation α :=
  ExceptT.mk (pure r)

def note (e : Log.Entry) : Operation Unit :=
  ExceptT.mk (.note e (.done (.ok ())))

def compile {α : Type} (r : Except CompileError α) : Operation α :=
  lift (r.mapError .compile)

def timedOut {α : Type} (seconds : Nat) : Operation α := do
  note (Log.warn "ClickHouse query timed out" [("timeout_secs", Text.numeral seconds)])
  lift (.error (.timeout seconds))

def wrapping {α : Type} (wrap : ClientFault → StoreError) (call : Call α) : Operation α :=
  ExceptT.mk do return (← call.run).mapError wrap

/-- A call that has to come back in time. Nothing comes back within no time at all. -/
def within {α : Type} (seconds : Nat) (call : Call α) : Operation α := do
  match ← (ExceptT.mk do return .ok (← call.run) : Operation (Except ClientFault α)) with
  | .error .silence => timedOut seconds
  | .error .unboundArgument => lift (.error (.client .unboundArgument))
  | .error .unboundFields => lift (.error (.client .unboundFields))
  | .error f => if seconds = 0 then timedOut seconds else lift (.error (.client f))
  | .ok a => if seconds = 0 then timedOut seconds else return a

end Operation

end CohortQuery.Store
