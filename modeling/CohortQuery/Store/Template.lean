import CohortQuery.Store.Error

/-!
# Statement templates

The client takes the text of a statement as a template: `??` stands for a question mark,
a lone `?` for an argument that has to be bound first. A text that is a value is escaped by
backslashes.
-/

set_option autoImplicit false

namespace CohortQuery.Store.Template

def startsFields (s : List Char) : Bool :=
  "fields".toList.isPrefixOf s

/-- The statement that a template without bound arguments stands for. -/
def expandChars : List Char → Except ClientFault (List Char)
  | [] => .ok []
  | '?' :: '?' :: s => (expandChars s).map ('?' :: ·)
  | '?' :: s => .error (if startsFields s then .unboundFields else .unboundArgument)
  | c :: s => (expandChars s).map (c :: ·)

def expand (s : String) : Except ClientFault String :=
  (expandChars s.toList).map String.ofList

def unmarkedChars (s : List Char) : List Char :=
  s.flatMap fun c => if c = '?' then ['?', '?'] else [c]

/-- A template with arguments bound to its first lone marks, one after the other. A mark in an
argument is none of the template. -/
def bindChars : (args : List String) → List Char → List Char
  | _, [] => []
  | args, '?' :: '?' :: s => '?' :: '?' :: bindChars args s
  | [], '?' :: s => '?' :: bindChars [] s
  | arg :: args, '?' :: s => unmarkedChars arg.toList ++ bindChars args s
  | args, c :: s => c :: bindChars args s

def bind (args : List String) (s : String) : String :=
  String.ofList (bindChars args s.toList)

def escapeChar (c : Char) : List Char :=
  if c = '\\' ∨ c = '\'' ∨ c = Char.ofNat 96 ∨ c = '\t' ∨ c = '\n' then ['\\', c] else [c]

/-- A text that is a value, in a literal or beside the statement. -/
def escapeText (s : String) : String :=
  String.ofList (s.toList.flatMap escapeChar)

end CohortQuery.Store.Template
