import CohortQuery.Error
import CohortQuery.Store.Status
import CohortQuery.Text.Blank

/-!
# Errors of the store

A `ClientFault` is what can go wrong with one request, a `StoreError` what can go wrong
with an operation on the store.
-/

set_option autoImplicit false

namespace CohortQuery.Store

open CohortQuery.Text (numeral signedNumeral)

inductive ClientFault where
  | badReply (reason : String)
  | noRows
  | unboundArgument
  | unboundFields
  | silence
  | unreachable (reason : String)
  deriving DecidableEq, Repr

/-- What a status other than 200 says: its text, or the status itself. -/
def ClientFault.ofStatus (status : Nat) (body : String) : ClientFault :=
  .badReply (if body.isEmpty then statusText status else Text.trim body)

def ClientFault.message : ClientFault → String
  | badReply reason => "bad response: " ++ reason
  | noRows => "no rows returned by a query that expected to return at least one row"
  | unboundArgument => "invalid params: invalid SQL: unbound query argument"
  | unboundFields => "invalid params: invalid SQL: unbound query argument ?fields"
  | silence => "timeout expired"
  | unreachable reason => "network error: " ++ reason

inductive StoreError where
  | compile (e : CompileError)
  | client (f : ClientFault)
  | migration (version : Int) (name reason : String)
  | connection (reason : String)
  | timeout (seconds : Nat)
  deriving DecidableEq, Repr

namespace StoreError

def migrationMessage (version : Int) (name reason : String) : String :=
  "Migration " ++ signedNumeral version ++ " (" ++ name ++ ") failed: " ++ reason

def message : StoreError → String
  | compile e => "Compile error: " ++ e.message
  | client f => "ClickHouse error: " ++ f.message
  | migration version name reason => migrationMessage version name reason
  | connection reason => "Connection error: " ++ reason
  | timeout seconds => "Query timeout after " ++ numeral seconds ++ "s"

end StoreError

end CohortQuery.Store
