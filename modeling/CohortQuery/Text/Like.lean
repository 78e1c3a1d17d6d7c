/-!
# Substring patterns

In a `LIKE` pattern `%` stands for any run of characters and `_` for any one character;
a backslash makes the next character stand for itself. `containing s` is the pattern of
the texts that contain `s`.
-/

set_option autoImplicit false

namespace CohortQuery.Text.Like

/-- Puts a backslash in front of every `c`. -/
def guardAll (c : Char) (s : List Char) : List Char :=
  s.flatMap fun d => if d = c then ['\\', d] else [d]

/-- The backslashes of the text are guarded first; those that come with the other two are
not guarded again. -/
def escapeChars (s : List Char) : List Char :=
  guardAll '_' (guardAll '%' (guardAll '\\' s))

def escape (s : String) : String :=
  String.ofList (escapeChars s.toList)

def containing (s : String) : String :=
  String.ofList ('%' :: escapeChars s.toList ++ ['%'])

end CohortQuery.Text.Like
