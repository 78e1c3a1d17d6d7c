import CohortQuery.CommandLine.Command
import CohortQuery.Environment.Basic

/-!
# Reading one level of a command line

The options before the command and those behind it are read in the same way. A value may
be attached to its option or follow it; one that follows is taken in only when the next
option comes or the level ends, which decides what fault is found first.
-/

set_option autoImplicit false

namespace CohortQuery.CommandLine

inductive Origin where
  | argument
  | environment
  deriving DecidableEq, Repr

structure Given (o : Opt) where
  origin : Origin
  value : o.Value

def Values := (o : Opt) → Option (Given o)

namespace Values

def nothing : Values := fun _ => none

def set (v : Values) (o : Opt) (g : Given o) : Values :=
  fun p => if h : o = p then some (h ▸ g) else v p

def value? (v : Values) (o : Opt) : Option o.Value :=
  (v o).map Given.value

/-- Takes in a text; an option that is there already is refused before the text is read. -/
def accept (v : Values) (origin : Origin) (o : Opt) (s : String) : Except Misuse Values := do
  if (v o).isSome && !o.repeats then throw .repeated
  let new ← o.read s
  return v.set o ⟨origin, o.add (v.value? o) new⟩

def acceptStandIns (env : Environment) (v : Values) : List Opt → Except Misuse Values
  | [] => return v
  | o :: rest => do
    match o.standIn?.bind env.get? with
    | some s =>
      if (v o).isSome then v.acceptStandIns env rest
      else (← v.accept .environment o s).acceptStandIns env rest
    | none => v.acceptStandIns env rest

/-- The values of an inner level above those of an outer one; an argument is never replaced
by a variable. -/
def above (inner outer : Values) : Values := fun o =>
  match inner o, outer o with
  | some ⟨.environment, _⟩, some ⟨.argument, x⟩ => some ⟨.argument, x⟩
  | some g, _ => some g
  | none, g => g

end Values

inductive Topic where
  | scope (s : Scope)
  | help
  deriving DecidableEq, Repr

inductive Stop where
  | help (t : Topic)
  | version
  | misuse (m : Misuse)
  deriving DecidableEq, Repr

inductive Argument where
  | separator
  | long (name : String) (value : Option String)
  | short (letter : Char) (attached : List Char)
  | plain
  deriving DecidableEq, Repr

def behindEquals : List Char → Option String
  | [] => none
  | _ :: s => some (String.ofList s)

def Argument.ofChars : List Char → Argument
  | ['-', '-'] => .separator
  | '-' :: '-' :: s =>
    .long (String.ofList (s.takeWhile (· ≠ '='))) (behindEquals (s.dropWhile (· ≠ '=')))
  | '-' :: c :: s => .short c s
  | _ => .plain

/-- The value that is attached to a letter, with or without an equals sign. -/
def attached? : List Char → Option String
  | [] => none
  | '=' :: s => some (String.ofList s)
  | s => some (String.ofList s)

/-- What a word is where a command may stand. -/
inductive Word where
  | help
  | command (c : CommandName)

def Scope.word? : Scope → String → Option Word
  | program, "help" => some .help
  | program, s => (CommandName.ofText? s).map .command
  | command _, _ => none

/-- What is wrong with a word that is neither a command nor a value. -/
def Scope.stray : Scope → Misuse
  | program => .unknownCommand
  | command _ => .unknownArgument

def Scope.strayBehindSeparator (s : Scope) (word : String) : Misuse :=
  if (s.word? word).isSome then .unknownArgument else s.stray

def Scope.flag? : Scope → String → Option Stop
  | s, "help" => some (.help (.scope s))
  | program, "version" => some .version
  | _, _ => none

def Scope.letteredFlag? : Scope → Char → Option Stop
  | s, 'h' => some (.help (.scope s))
  | program, 'V' => some .version
  | _, _ => none

/-- An option that was named, with the text of its value if it has come. -/
structure Pending where
  option : Opt
  text : Option String

structure Level where
  scope : Scope
  values : Values
  pending : Option Pending

namespace Level

def start (s : Scope) : Level := ⟨s, .nothing, none⟩

def awaits (l : Level) : Bool :=
  match l.pending with
  | some ⟨_, none⟩ => true
  | _ => false

def settle (l : Level) : Except Misuse Level := do
  match l.pending with
  | none => return l
  | some ⟨_, none⟩ => throw .noValue
  | some ⟨o, some s⟩ =>
    return { l with values := ← l.values.accept .argument o s, pending := none }

def name (l : Level) (o : Opt) (attached : Option String) : Except Misuse Level := do
  let l ← l.settle
  match attached with
  | none => return { l with pending := some ⟨o, none⟩ }
  | some s => return { l with values := ← l.values.accept .argument o s }

/-- A flag stops the reading, unless a fault comes before it. -/
def raise (l : Level) (stop : Stop) : Stop :=
  match l.settle with
  | .ok _ => stop
  | .error m => .misuse m

def long (l : Level) (name : String) (value : Option String) : Except Stop Level :=
  match l.scope.named? name, l.scope.flag? name, value with
  | some o, _, _ => (l.name o value).mapError .misuse
  | none, some _, some _ => .error (.misuse .needlessValue)
  | none, some stop, none => .error (l.raise stop)
  | none, none, _ => .error (.misuse .unknownArgument)

def short (l : Level) (letter : Char) (rest : List Char) : Except Stop Level :=
  match l.scope.lettered? letter, l.scope.letteredFlag? letter with
  | some o, _ => (l.name o (attached? rest)).mapError .misuse
  | none, some stop => .error (l.raise stop)
  | none, none => .error (.misuse .unknownArgument)

def receive (l : Level) (word : String) : Except Stop Level :=
  match l.pending with
  | some ⟨o, none⟩ => .ok { l with pending := some ⟨o, some word⟩ }
  | _ => .error (.misuse l.scope.stray)

def checkNoWord (l : Level) : List String → Except Stop Unit
  | [] => .ok ()
  | word :: _ => .error (.misuse (l.scope.strayBehindSeparator word))

def helpFor : List String → Stop
  | [] => .help (.scope .program)
  | [word] =>
    match Scope.program.word? word with
    | some .help => .help .help
    | some (.command c) => .help (.scope (.command c))
    | none => .misuse .unknownCommand
  | _ => .misuse .unknownCommand

/-- Reads up to the end or to a command, which comes with the arguments behind it. -/
def read (l : Level) : List String → Except Stop (Level × Option (CommandName × List String))
  | [] => .ok (l, none)
  | arg :: rest =>
    match if l.awaits then none else l.scope.word? arg with
    | some .help => .error (helpFor rest)
    | some (.command c) => .ok (l, some (c, rest))
    | none =>
      match Argument.ofChars arg.toList with
      | .separator => do
        l.checkNoWord rest
        return (l, none)
      | .long name value => do (← l.long name value).read rest
      | .short letter more => do (← l.short letter more).read rest
      | .plain => do (← l.receive arg).read rest

def close (env : Environment) (l : Level) : Except Misuse Values := do
  let l ← l.settle
  l.values.acceptStandIns env l.scope.options

end Level

end CohortQuery.CommandLine
