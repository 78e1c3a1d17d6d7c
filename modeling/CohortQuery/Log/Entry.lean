import CohortQuery.Text.Join

/-!
# Log entries

A line of the log: a level, a message and named values. The time of a line is set by the
one who writes it.
-/

set_option autoImplicit false

namespace CohortQuery.Log

inductive Level where
  | error
  | warn
  | info
  | debug
  | trace
  deriving DecidableEq, Repr

def Level.rank : Level → Nat
  | error => 1
  | warn => 2
  | info => 3
  | debug => 4
  | trace => 5

def Level.label : Level → String
  | error => "ERROR"
  | warn => " WARN"
  | info => " INFO"
  | debug => "DEBUG"
  | trace => "TRACE"

structure Entry where
  level : Level
  message : String
  values : List (String × String)
  deriving DecidableEq, Repr

def debug (message : String) (values : List (String × String)) : Entry :=
  ⟨.debug, message, values⟩

def warn (message : String) (values : List (String × String)) : Entry :=
  ⟨.warn, message, values⟩

def Entry.render (time : String) (e : Entry) : String :=
  Text.join " " ([time, e.level.label, e.message] ++ e.values.map fun (k, v) => k ++ "=" ++ v)

end CohortQuery.Log
