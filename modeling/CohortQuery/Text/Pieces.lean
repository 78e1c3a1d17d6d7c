/-!
# Pieces of a text

The parts of a text between its separators; a text with n separators has n + 1 pieces,
any of which may be empty.
-/

set_option autoImplicit false

namespace CohortQuery.Text

def startPiece (c : Char) : List (List Char) → List (List Char)
  | [] => [[c]]
  | p :: ps => (c :: p) :: ps

def piecesOf (separator : Char) : List Char → List (List Char)
  | [] => [[]]
  | c :: s =>
    if c = separator then [] :: piecesOf separator s
    else startPiece c (piecesOf separator s)

def pieces (separator : Char) (s : String) : List String :=
  (piecesOf separator s.toList).map String.ofList

end CohortQuery.Text
