import CohortQuery.Text.Blank

/-!
# Paths

A path given by a user may start with `~`, which stands for the home directory. A path
that is not absolute is taken from the working directory.
-/

set_option autoImplicit false

namespace CohortQuery.Path

/-- The directories that are known; the text of one that is not known is empty. -/
structure Places where
  home : String
  working : String

def isAbsolute (p : List Char) : Bool :=
  p.head? = some '/'

/-- An absolute path stands for itself behind any other. -/
def join (base rest : List Char) : List Char :=
  if isAbsolute rest then rest
  else if base.isEmpty ∨ base.getLast? = some '/' then base ++ rest
  else base ++ '/' :: rest

/-- The path that a trimmed text names, before it is made absolute. Without a home directory `~` is
a name like any other. -/
def atHome (home : List Char) : List Char → List Char
  | [] => ['.']
  | ['~'] => if home.isEmpty then ['~'] else home
  | '~' :: '/' :: rest => if home.isEmpty then '~' :: '/' :: rest else join home rest
  | p => p

def expandChars (home working p : List Char) : List Char :=
  join working (atHome home (Text.trimChars p))

def expand (places : Places) (p : String) : String :=
  String.ofList (expandChars places.home.toList places.working.toList p.toList)

end CohortQuery.Path
