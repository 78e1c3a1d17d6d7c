import CohortQuery.Disk
import CohortQuery.Log.Entry
import CohortQuery.Path
import CohortQuery.Settings.Basic

/-!
# Loading settings

The file in the home directory is read first, then the one that the command line names or
else the one in the working directory. The log tells what was read.
-/

set_option autoImplicit false

namespace CohortQuery.Settings

inductive Error where
  | notFound (path : String)
  | unreadable (path cause : String)
  | malformed (path : String) (fault : Json.Fault)
  | flawed (flaw : Flaw)
  deriving DecidableEq, Repr

namespace Error

def message : Error → String
  | notFound path => "Config file not found: " ++ path
  | unreadable path _ => "Failed to read config file: " ++ path
  | malformed path _ => "Failed to parse config file: " ++ path
  | flawed f => f.message

def causes : Error → List String
  | unreadable _ cause => [cause]
  | malformed _ f => [f.message]
  | notFound _ | flawed _ => []

end Error

abbrev Loader := ExceptT Error (StateM (List Log.Entry))

def note (e : Log.Entry) : Loader Unit :=
  modify (· ++ [e])

def fileName : String := "cohortql.json"

def profilePath (home : String) : String :=
  String.ofList (Path.join (Path.join home.toList ".cohortql".toList) fileName.toList)

def profile? (disk : Disk) (home : String) : Option String :=
  if home.isEmpty then none
  else if (disk (profilePath home)).exists then some (profilePath home)
  else none

def loadFile (disk : Disk) (path : String) : Loader File := do
  note (Log.debug "Loading config file" [("path", path)])
  match (disk path).content with
  | .error cause => throw (.unreadable path cause)
  | .ok s =>
    match File.read s with
    | .error f => throw (.malformed path f)
    | .ok file =>
      if !file.unknown.isEmpty then
        note (Log.warn "Unknown fields in config file (possible typos)"
          [("fields", Text.join ", " file.unknown)])
      return file

/-- The file behind the one in the home directory, if there is one. -/
def overlayPath (disk : Disk) (places : Path.Places) (given : Given) :
    Except Error (Option String) :=
  match given.config with
  | some path =>
    let path := Path.expand places path
    if (disk path).exists then .ok (some path) else .error (.notFound path)
  | none => .ok (if (disk fileName).exists then some fileName else none)

def shownPaths (paths : List String) : String :=
  "[" ++ Text.join ", " (paths.map Text.quoted) ++ "]"

def loadOptional (disk : Disk) (file : File) : Option String → Loader File
  | none => return file
  | some path => return file.merge (← loadFile disk path)

def load (disk : Disk) (places : Path.Places) (given : Given) : Loader Effective := do
  note (Log.debug "Loading application configuration" [])
  let profile := profile? disk places.home
  let file ← loadOptional disk .empty profile
  let overlay ← match overlayPath disk places given with
    | .ok path => pure path
    | .error e => throw e
  let file ← loadOptional disk file overlay
  note (Log.debug "Config files loaded"
    [("configs", shownPaths (profile.toList ++ overlay.toList))])
  let settings := layer given file
  match settings.flaw? with
  | some f => throw (.flawed f)
  | none => return settings

end CohortQuery.Settings
