import CohortQuery.Disk
import CohortQuery.Environment.Basic
import CohortQuery.Path
import CohortQuery.Text.Alphanumeric
import CohortQuery.Text.Blank
import CohortQuery.Text.Pieces

/-!
# Environment files

A file `.env` gives values to variables that have none. Its lines are assignments or
comments; a quoted value may go over several lines and a value may refer to variables. The
first malformed line ends the reading, what stands before it counts.
-/

set_option autoImplicit false

namespace CohortQuery.Environment

open CohortQuery.Text (isBlank)

/-- A line goes on behind a line feed while a quote is open. A number sign behind a blank
starts a comment, up to the line feed. -/
inductive LineState where
  | plain
  | blank
  | escaped
  | double
  | doubleEscaped
  | single
  | singleEscaped
  deriving DecidableEq, Repr

namespace LineState

def ofOpening (c : Char) : LineState :=
  if c = '\\' then escaped else if c = '"' then double else if c = '\'' then single else plain

/-- The state behind a character, unless a comment starts there. -/
def step (s : LineState) (c : Char) : Option LineState :=
  match s with
  | plain => some (if isBlank c ∧ c ≠ '\n' ∧ c ≠ '\r' then blank else ofOpening c)
  | blank => if c = '#' then none else some (ofOpening c)
  | escaped => some plain
  | double => some (if c = '\\' then doubleEscaped else if c = '"' then plain else double)
  | doubleEscaped => some double
  | single => some (if c = '\\' then singleEscaped else if c = '\'' then plain else single)
  | singleEscaped => some single

/-- The characters before a comment, and the state behind them if no comment comes. -/
def run (s : LineState) : List Char → List Char × Option LineState
  | [] => ([], some s)
  | c :: rest =>
    match s.step c with
    | none => ([], none)
    | some s =>
      let (before, ending) := s.run rest
      (c :: before, ending)

end LineState

/-- The parts of a text up to each line feed, and what is left behind the last one. -/
def feedLines (s : List Char) : List (List Char) :=
  withFeeds (Text.piecesOf '\n' s)
where
  withFeeds : List (List Char) → List (List Char)
    | [] => []
    | [last] => if last.isEmpty then [] else [last]
    | p :: q :: rest => (p ++ ['\n']) :: withFeeds (q :: rest)

/-- The assignments and comments of a file; an absent one stands for a line that does not
end. -/
def lines (before : List Char) (s : LineState) : List (List Char) → List (Option (List Char))
  | [] => if s = .plain then [] else [none]
  | l :: rest =>
    if ((before ++ l).dropWhile isBlank).head? = some '#' then
      some [] :: lines [] .plain rest
    else
      match s.run l with
      | (shown, none) => some (before ++ shown) :: lines [] .plain rest
      | (_, some .plain) => some (before ++ l) :: lines [] .plain rest
      | (_, some s) => lines (before ++ l) s rest

/-- Where a value stands; the flag tells whether a double quote is open. -/
inductive ValueState where
  | plain (quoted : Bool)
  | single
  | escaped (quoted : Bool)
  | name (quoted : Bool) (chars : List Char)
  | braced (quoted : Bool) (chars : List Char)
  | ended
  | comment

def valueOf (env : Environment) (name : List Char) : List Char :=
  ((env.get? (String.ofList name)).getD "").toList

def escape? (c : Char) : Option Char :=
  if c = 'n' then some '\n'
  else if c = '\\' ∨ c = '\'' ∨ c = '"' ∨ c = '$' ∨ c = ' ' then some c
  else none

namespace ValueState

def stepPlain (quoted : Bool) (c : Char) : ValueState × List Char :=
  if c = '$' then (name quoted [], [])
  else if c = '\\' then (escaped quoted, [])
  else if c = '"' then (plain !quoted, [])
  else if quoted then (plain quoted, [c])
  else if c = '\'' then (single, [])
  else if c = ' ' ∨ c = '\t' then (ended, [])
  else (plain quoted, [c])

/-- The state behind a character and what the character adds to the value. -/
def step (env : Environment) (s : ValueState) (c : Char) : Option (ValueState × List Char) :=
  match s with
  | plain quoted => some (stepPlain quoted c)
  | single => some (if c = '\'' then (plain false, []) else (single, [c]))
  | escaped quoted => (escape? c).map fun c => (plain quoted, [c])
  | name quoted chars =>
    if Text.isAlphanumeric c then some (name quoted (chars ++ [c]), [])
    else if c = '\x7b' ∧ chars = [] then some (braced quoted [], [])
    else if c = '$' then some (name quoted [], valueOf env chars)
    else some (plain quoted, valueOf env chars ++ [c])
  | braced quoted chars =>
    if c = '\x7d' then some (plain quoted, valueOf env chars)
    else some (braced quoted (chars ++ [c]), [])
  | ended =>
    if c = ' ' ∨ c = '\t' then some (ended, [])
    else if c = '#' then some (comment, [])
    else none
  | comment => some (comment, [])

/-- What the end adds to the value, which needs all quotes and braces closed. -/
def finish (env : Environment) : ValueState → Option (List Char)
  | plain quoted | escaped quoted => if quoted then none else some []
  | name quoted chars => if quoted then none else some (valueOf env chars)
  | single | braced _ _ => none
  | ended | comment => some []

def run (env : Environment) (s : ValueState) : List Char → Option (List Char)
  | [] => s.finish env
  | c :: rest => do
    let (s, out) ← s.step env c
    return out ++ (← s.run env rest)

end ValueState

def isKeyStart (c : Char) : Bool :=
  c.isAlpha || c = '_'

def isKeyChar (c : Char) : Bool :=
  c.isAlphanum || c = '_' || c = '.'

def readKey (s : List Char) : Option (List Char × List Char) :=
  if s.head?.any isKeyStart then
    some (s.takeWhile isKeyChar, (s.dropWhile isKeyChar).dropWhile isBlank)
  else none

def readEquals : List Char → Option (List Char)
  | '=' :: s => some (s.dropWhile isBlank)
  | _ => none

/-- The key of an assignment and what stands behind the equals sign. The word `export` in
front of the key does not count, though it may be a key itself. -/
def readTarget (s : List Char) : Option (List Char × List Char) := do
  let (key, rest) ← readKey s
  match readEquals rest with
  | some value => return (key, value)
  | none =>
    if key = "export".toList then do
      let (key, rest) ← readKey rest
      return (key, ← readEquals rest)
    else none

def isBare (s : List Char) : Bool :=
  s.isEmpty || s.head? = some '#'

/-- What a line assigns, if anything; the outer option is for malformed lines. -/
def readLine (env : Environment) (s : List Char) : Option (Option (String × String)) := do
  let s := Text.trimChars s
  if isBare s then return none
  let (key, value) ← readTarget s
  let value ← if isBare value then some [] else (ValueState.plain false).run env value
  return some (String.ofList key, String.ofList value)

def assign (env : Environment) : List (Option (List Char)) → Environment
  | [] => env
  | none :: _ => env
  | some l :: rest =>
    match readLine env l with
    | none => env
    | some none => env.assign rest
    | some (some (name, value)) => (env.provide name value).assign rest

def withoutMark : List Char → List Char
  | '\uFEFF' :: s => s
  | s => s

def withText (env : Environment) (content : String) : Environment :=
  env.assign (lines [] .plain (feedLines (withoutMark content.toList)))

/-- The path of the file in the directory whose names are given, the innermost first. -/
def pathIn (names : List String) : String :=
  String.join (names.reverse.map ("/" ++ ·)) ++ "/.env"

/-- The environment with the file that stands at an entry, else `otherwise`. Of a file that
is not text the lines in front of the first bad one count. -/
def withEntry (env otherwise : Environment) : FileEntry → Environment
  | .text content | .notText content => env.withText content
  | .absent | .directory => otherwise

/-- The environment with the file of a directory, or of the nearest one around it. -/
def withNearest (env : Environment) (disk : Disk) : List String → Environment
  | [] => env.withEntry env (disk (pathIn []))
  | name :: outer => env.withEntry (env.withNearest disk outer) (disk (pathIn (name :: outer)))

/-- The names of the working directory, the innermost first. -/
def outwards (places : Path.Places) : List String :=
  ((Text.pieces '/' places.working).filter (· ≠ "")).reverse

def withFile (env : Environment) (disk : Disk) (places : Path.Places) : Environment :=
  if places.working.isEmpty then env else env.withNearest disk (outwards places)

def candidatesFrom : List String → List String
  | [] => [pathIn []]
  | name :: outer => pathIn (name :: outer) :: candidatesFrom outer

def candidates (places : Path.Places) : List String :=
  candidatesFrom (outwards places)

end CohortQuery.Environment
