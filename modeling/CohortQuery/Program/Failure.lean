import CohortQuery.Error
import CohortQuery.Settings.Load
import CohortQuery.Store.Error

/-!
# Failures of the program

What can end a command. The message is that of the outermost cause.
-/

set_option autoImplicit false

namespace CohortQuery.Program

inductive Failure where
  | settings (e : Settings.Error)
  | unreadable (path : String)
  | malformed (path : String) (e : CompileError)
  | compile (e : CompileError)
  | store (e : Store.StoreError)
  | schema (e : Store.StoreError)
  deriving DecidableEq, Repr

def Failure.message : Failure → String
  | settings e => e.message
  | unreadable path => "Failed to read file: " ++ path
  | malformed path _ => "Invalid cohort definition: " ++ path
  | compile e => e.message
  | store e => e.message
  | schema _ => "Failed to apply ClickHouse schema"

end CohortQuery.Program
