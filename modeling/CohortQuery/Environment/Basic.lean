/-!
# The environment

The variables that a run finds, each with one value.
-/

set_option autoImplicit false

namespace CohortQuery

abbrev Environment := List (String × String)

namespace Environment

def get? (e : Environment) (name : String) : Option String :=
  e.lookup name

/-- Gives a value to a variable that has none. -/
def provide (e : Environment) (name value : String) : Environment :=
  if (e.get? name).isSome then e else e ++ [(name, value)]

end Environment

end CohortQuery
