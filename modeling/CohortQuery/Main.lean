import CohortQuery.Program.Run
import CohortQuery.Time.Stamp
import Std.Time.DateTime.Timestamp

/-!
# The command line program

Looks up what a run may need, makes the run and writes what it leaves behind. There is no
connection to a store: every request fails.
-/

set_option autoImplicit false

namespace CohortQuery.Program

def entryAt (path : String) : IO FileEntry := do
  try
    return .ofBytes (← IO.FS.readBinFile path)
  catch e =>
    return match e with
      | .noFileOrDirectory _ _ _ => .absent
      | _ => .directory

def diskAt (paths : List String) : IO Disk := do
  let entries ← paths.mapM fun path => return (path, ← entryAt path)
  return fun path => (entries.lookup path).getD .absent

def isWordChar (c : Char) : Bool :=
  c.isAlphanum || c = '_'

def words (content : String) : List String :=
  ((content.toList.splitBy fun a b => isWordChar a == isWordChar b).filter
    fun w => w.any isWordChar).map String.ofList

def environmentAt (names : List String) : IO Environment := do
  let found ← names.eraseDups.mapM fun name => return (name, ← IO.getEnv name)
  return found.filterMap fun (name, value) => value.map (name, ·)

/-- The names of the variables that a run looks at, besides those that a file mentions. -/
def knownNames : List String :=
  ["HOME", "COHORTQL_LOG", "RUST_LOG"] ++
    CommandLine.sharedOptions.filterMap fun (o, _) => o.standIn?

def contentOf : FileEntry → String
  | .text content | .notText content => content
  | .absent | .directory => ""

def namedFiles (places : Path.Places) (env : Environment) (args : List String) : List String :=
  match CommandLine.Invocation.read env args with
  | .error _ | .ok ⟨_, none⟩ => []
  | .ok ⟨given, some c⟩ =>
    let definition := match c with
      | .compile args _ | .cohort args _ _ => [args.definition]
      | _ => []
    (given.config.toList ++ definition).map (Path.expand places)

def surroundingsOf (args : List String) : IO Surroundings := do
  let places : Path.Places :=
    ⟨(← IO.getEnv "HOME").getD "", (← IO.currentDir).toString⟩
  let around := Environment.candidates places
  let envFiles ← diskAt around
  let env ← environmentAt (knownNames ++ around.flatMap fun p => words (contentOf (envFiles p)))
  let disk ← diskAt (around ++ [Settings.profilePath places.home, Settings.fileName] ++
    namedFiles places (env.withFile envFiles places) args)
  let now ← Std.Time.Timestamp.now
  return ⟨disk, places, env, Text.signedNumeral now.toSecondsSinceUnixEpoch.val⟩

def logTime : IO String := do
  let nanos := (← Std.Time.Timestamp.now).toNanosecondsSinceUnixEpoch.val
  let seconds := nanos / 1000000000
  let micros := (nanos % 1000000000 / 1000).toNat
  return match Time.DateTime.ofEpoch? seconds 0 with
    | some t => t.date.render ++ "T" ++ t.renderClock ++ "." ++ Text.paddedNumeral 6 micros ++ "Z"
    | none => Text.signedNumeral seconds

def write (e : Ended) : IO Unit := do
  let time ← logTime
  for entry in e.log do
    IO.eprintln (entry.render time)
  IO.print e.output
  match e.complaint with
  | some message => IO.eprintln ("\nError: " ++ message ++ "\n")
  | none => return ()

end CohortQuery.Program

def main (args : List String) : IO UInt32 := do
  let s ← CohortQuery.Program.surroundingsOf args
  let e := CohortQuery.Program.run s args (.unreachable "no connection") []
  CohortQuery.Program.write e
  return e.code.toUInt32
