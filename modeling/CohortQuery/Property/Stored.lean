import CohortQuery.Json.Read

/-!
# Stored properties

The properties of an event are stored as a JSON text. The empty text is the empty object;
a text that is no JSON is kept as a string.
-/

set_option autoImplicit false

namespace CohortQuery

def storedProperties (s : String) : Json :=
  if s.isEmpty then .object []
  else
    match Json.read s with
    | .ok v => v
    | .error _ => .text s

end CohortQuery
