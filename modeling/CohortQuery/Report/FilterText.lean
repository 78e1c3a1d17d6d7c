import CohortQuery.Json.Located
import CohortQuery.Report.Filter

/-!
# Filters as texts

A filter read straight from a JSON text, with the position of what is wrong in it. In a
list trailing fields may be left out.
-/

set_option autoImplicit false

namespace CohortQuery.Report.Filter

def shape : Json.Located.Shape where
  name := typeName
  fields := fieldNames.map fun name =>
    (name, fun v => (Json.Decode.option Json.Decode.text v).map fun _ => ())
  complete := false

def read (s : String) : Except Json.Fault Filter := do
  let fields ← Json.Located.whole shape.read s
  match record.ofFields fields with
  | .ok f => return f
  | .error m => .error ⟨.mismatch m, .start⟩

end CohortQuery.Report.Filter
