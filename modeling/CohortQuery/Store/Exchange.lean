import CohortQuery.Log.Entry
import CohortQuery.Params
import CohortQuery.Store.Error
import CohortQuery.Store.Record

/-!
# Exchanges with the store

An exchange is a tree of requests: what is asked next may depend on the reply before. It
says nothing of the one who answers; `play` answers from a list of replies.
-/

set_option autoImplicit false

namespace CohortQuery.Store

structure Request where
  sql : String
  params : Params
  fetches : Bool
  deriving DecidableEq

inductive Reply where
  /-- Rows as they come, up to their end or to a fault. -/
  | rows (table : Table) (fault : Option ClientFault)
  | refusal (status : Nat) (body : String)
  | unreachable (reason : String)
  | silence
  deriving DecidableEq, Repr

inductive Exchange (α : Type) where
  | done (a : α)
  | note (e : Log.Entry) (rest : Exchange α)
  | ask (r : Request) (next : Reply → Exchange α)

namespace Exchange

def bind {α β : Type} : Exchange α → (α → Exchange β) → Exchange β
  | done a, f => f a
  | note e rest, f => note e (rest.bind f)
  | ask r next, f => ask r fun reply => (next reply).bind f

instance : Monad Exchange where
  pure := done
  bind := bind

structure Played (α : Type) where
  value : α
  requests : List Request
  log : List Log.Entry

/-- The n-th request gets the n-th reply, and `otherwise` when none is left. -/
def play {α : Type} (otherwise : Reply) : Exchange α → List Reply → Played α
  | done a, _ => ⟨a, [], []⟩
  | note e rest, replies =>
    let p := rest.play otherwise replies
    { p with log := e :: p.log }
  | ask r next, [] =>
    let p := (next otherwise).play otherwise []
    { p with requests := r :: p.requests }
  | ask r next, reply :: replies =>
    let p := (next reply).play otherwise replies
    { p with requests := r :: p.requests }

end Exchange

/-- An operation on the store: an exchange that may fail. -/
abbrev Operation := ExceptT StoreError Exchange

/-- One request, which may fail. -/
abbrev Call := ExceptT ClientFault Exchange

def note (e : Log.Entry) : Exchange Unit :=
  .note e (.done ())

end CohortQuery.Store
