import CohortQuery.Json.Located

/-!
# Settings files

A settings file is a JSON object with two sections, one on the store and one on the size
of queries. Every section and every setting may be absent or null. Other fields of the
file are named, other fields of a section are passed over.
-/

set_option autoImplicit false

namespace CohortQuery.Settings

open Json (Fault Fields RecordField Record)

structure StoreSection where
  url : Option String
  database : Option String
  user : Option String
  password : Option String
  timeoutSecs : Option Nat
  compression : Option Bool
  deriving DecidableEq, Repr

structure QuerySection where
  defaultLimit : Option Nat
  maxLimit : Option Nat
  topLimit : Option Nat
  deriving DecidableEq, Repr

structure File where
  store : Option StoreSection
  query : Option QuerySection
  unknown : List String
  deriving DecidableEq, Repr

def StoreSection.empty : StoreSection := ⟨none, none, none, none, none, none⟩

def QuerySection.empty : QuerySection := ⟨none, none, none⟩

def File.empty : File := ⟨none, none, []⟩

open Json.Decode in
def optional {α : Type} (name : String) (decode : Json.Decoder α) : RecordField (Option α) :=
  .defaulted name none (option decode)

def scalarOf {α : Type} (f : RecordField α) : String × (Json → Except Json.Mismatch Unit) :=
  (f.name, fun v => (f.decode v).map fun _ => ())

open Json.Decode

def urlField := optional "url" text
def databaseField := optional "database" text
def userField := optional "user" text
def passwordField := optional "password" text
def timeoutField := optional "timeout_secs" word64
def compressionField := optional "compression" Json.Decode.bool
def defaultLimitField := optional "default_limit" word32
def maxLimitField := optional "max_limit" word32
def topLimitField := optional "top_events_limit" word32

def StoreSection.record : Record StoreSection :=
  (Record.of StoreSection.mk)
    |>.field urlField |>.field databaseField |>.field userField |>.field passwordField
    |>.field timeoutField |>.field compressionField

def QuerySection.record : Record QuerySection :=
  (Record.of QuerySection.mk)
    |>.field defaultLimitField |>.field maxLimitField |>.field topLimitField

def StoreSection.shape : Json.Located.Shape where
  name := "ClickhouseFileConfig"
  fields := [scalarOf urlField, scalarOf databaseField, scalarOf userField,
    scalarOf passwordField, scalarOf timeoutField, scalarOf compressionField]
  complete := true

def QuerySection.shape : Json.Located.Shape where
  name := "QueryFileConfig"
  fields := [scalarOf defaultLimitField, scalarOf maxLimitField, scalarOf topLimitField]
  complete := true

def storeName : String := "clickhouse"

def queryName : String := "query"

def readSection (shape : Json.Located.Shape) : Json.Located.Reader (Option Json) := fun r =>
  match r.tokens with
  | ⟨.null, _, _, _, _⟩ :: ts => .ok (some .null, ⟨ts, r.stop⟩)
  | _ => do
    let (fields, r) ← shape.read r
    return (some (.object fields), r)

def fieldReader : Json.Located.FieldReader where
  known := [storeName, queryName]
  read key :=
    if key = storeName then readSection StoreSection.shape
    else if key = queryName then readSection QuerySection.shape
    else fun r => do
      let (v, r) ← Json.Located.value 1 r
      return (some v, r)

def readFields : Json.Located.Reader Fields := fun r =>
  match r.tokens with
  | [] => Json.Located.fail .endInValue r.stop
  | t :: ts => do
    match ← Json.Located.shapeOf t with
    | .object _ => Json.Located.objectFields fieldReader ⟨ts, r.stop⟩
    | v => .error (Json.Located.mismatchAt t (.type v.found "struct FileConfig"))

def sectionOf {α : Type} (record : Record α) (fields : Fields) (name : String) :
    Except Json.Mismatch (Option α) :=
  match Json.get? fields name with
  | some (.object fields) => (record.ofFields fields).map some
  | _ => .ok none

def File.ofFields (fields : Fields) : Except Json.Mismatch File := do
  let store ← sectionOf StoreSection.record fields storeName
  let query ← sectionOf QuerySection.record fields queryName
  let unknown := (fields.map Prod.fst).filter fun key => !fieldReader.known.contains key
  return ⟨store, query, unknown⟩

def File.read (s : String) : Except Fault File := do
  let fields ← Json.Located.whole readFields s
  match File.ofFields fields with
  | .ok file => return file
  | .error m => .error ⟨.mismatch m, .start⟩

/-- The settings of `above` where it has them, else those of the section. -/
def StoreSection.merge (s above : StoreSection) : StoreSection where
  url := above.url.or s.url
  database := above.database.or s.database
  user := above.user.or s.user
  password := above.password.or s.password
  timeoutSecs := above.timeoutSecs.or s.timeoutSecs
  compression := above.compression.or s.compression

def QuerySection.merge (s above : QuerySection) : QuerySection where
  defaultLimit := above.defaultLimit.or s.defaultLimit
  maxLimit := above.maxLimit.or s.maxLimit
  topLimit := above.topLimit.or s.topLimit

def mergeSection {α : Type} (merge : α → α → α) (empty : α) (s : Option α) :
    Option α → Option α
  | none => s
  | some above => some (merge (s.getD empty) above)

def File.merge (f above : File) : File where
  store := mergeSection StoreSection.merge .empty f.store above.store
  query := mergeSection QuerySection.merge .empty f.query above.query
  unknown := f.unknown

end CohortQuery.Settings
