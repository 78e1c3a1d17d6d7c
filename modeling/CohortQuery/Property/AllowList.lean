import CohortQuery.Error
import CohortQuery.Property.Name

/-!
# Allow-lists of properties

The property names that a definition may use, sorted and each once. Unsafe names do not
get in.
-/

set_option autoImplicit false

namespace CohortQuery

structure AllowList where
  names : List PropertyName

namespace AllowList

def empty : AllowList := ⟨[]⟩

def insertName (n : PropertyName) : List PropertyName → List PropertyName
  | [] => [n]
  | m :: rest =>
    if n.text = m.text then m :: rest
    else if n.text < m.text then n :: m :: rest
    else m :: insertName n rest

/-- Whether the name is safe, and the list with it if it is. -/
def insert (l : AllowList) (s : String) : Bool × AllowList :=
  match PropertyName.ofText? s with
  | some n => (true, ⟨insertName n l.names⟩)
  | none => (false, l)

def insertAll (l : AllowList) (names : List String) : AllowList :=
  names.foldl (fun l s => (l.insert s).2) l

def ofNames (names : List String) : AllowList :=
  empty.insertAll names

def refused (names : List String) : List String :=
  names.filter fun s => !PropertyName.isSafe s.toList

def toTexts (l : AllowList) : List String :=
  l.names.map PropertyName.text

def contains (l : AllowList) (s : String) : Bool :=
  l.toTexts.contains s

def size (l : AllowList) : Nat :=
  l.names.length

def check (l : AllowList) (s : String) : Except CompileError PropertyName :=
  match PropertyName.ofText? s with
  | none => .error (.invalidPropertyName s)
  | some n => if l.contains s then .ok n else .error (.unknownProperty s)

end AllowList

end CohortQuery
