/-!
# Joined texts
-/

set_option autoImplicit false

namespace CohortQuery.Text

def join (separator : String) : List String → String
  | [] => ""
  | [s] => s
  | s :: t :: rest => s ++ separator ++ join separator (t :: rest)

end CohortQuery.Text
