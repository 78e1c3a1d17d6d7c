import CohortQuery.Store.Client
import CohortQuery.Store.Schema

/-!
# Migrations

The store records the version of its schema. A store without one gets the whole schema,
an older one the upgrades in between, a newer one is refused. The version is recorded
behind the statements that make it.
-/

set_option autoImplicit false

namespace CohortQuery.Store

open CohortQuery.Text (numeral signedNumeral)

namespace Migration

def probe : Query :=
  ⟨"SELECT count() > 0 FROM system.tables WHERE database = currentDatabase() AND " ++
    "name = 'schema_version'", []⟩

def recorded : Query :=
  ⟨"SELECT version FROM schema_version FINAL WHERE id = 1", []⟩

def statement (sql : String) : Query := ⟨sql, []⟩

/-- Records a version, at the time that `clock` is the numeral of. -/
def record (clock : String) (version : Int) (description : String) : Query :=
  ⟨Template.bind ["1", signedNumeral version, clock, "'" ++ Template.escapeText description ++ "'"]
    "INSERT INTO schema_version (id, version, applied_at, description) VALUES (?, ?, ?, ?)", []⟩

def shownVersion (v : Int) : String := "v" ++ signedNumeral v

def unreachable (f : ClientFault) : StoreError :=
  .connection ("Failed to check schema_version table: " ++ f.message ++
    ". Verify ClickHouse is running and accessible.")

/-- The recorded version, if there is one. -/
def current : Operation (Option Int) := do
  let known ← Operation.wrapping unreachable (Call.fetchOne Table.flags? probe)
  if known then Operation.wrapping .client (Call.fetchOptional Table.versions? recorded)
  else return none

def recordVersion (clock : String) (version : Int) (description : String) :
    Operation Unit :=
  Operation.wrapping .client (Call.execute (record clock version description))

def executeAll (wrap : ClientFault → StoreError) : List String → Operation Unit
  | [] => return ()
  | sql :: rest => do
    Operation.wrapping wrap (Call.execute (statement sql))
    executeAll wrap rest

def initial (settings : Settings.Store) (clock : String) : Operation Unit := do
  let statements := Schema.statements settings
  Operation.note (Log.debug "Applying ClickHouse schema"
    [("statements", numeral statements.length)])
  executeAll (fun f => .migration Schema.version "initial" f.message) statements
  recordVersion clock Schema.version "Initial schema"
  Operation.note (Log.debug "ClickHouse schema applied successfully"
    [("version", signedNumeral Schema.version)])

def upgrade (clock : String) (version : Int) : Operation Unit :=
  match Schema.upgrade? version with
  | none =>
    Operation.lift (.error (.migration version "unknown"
      ("No migration defined for version " ++ signedNumeral version)))
  | some (name, sql) => do
    executeAll (fun f => .migration version name f.message) [sql]
    recordVersion clock version name
    Operation.note (Log.debug
      ("ClickHouse migration " ++ shownVersion version ++ " (" ++ name ++ ") applied") [])

/-- So many upgrades, from the one that makes `version` on. -/
def upgrades (clock : String) (version : Int) : Nat → Operation Unit
  | 0 => return ()
  | count + 1 => do
    upgrade clock version
    upgrades clock (version + 1) count

def run (settings : Settings.Store) (clock : String) : Operation Unit := do
  match ← current with
  | none => do
    Operation.note (Log.debug
      ("Applying initial ClickHouse schema " ++ shownVersion Schema.version) [])
    initial settings clock
  | some v =>
    if v < Schema.version then do
      Operation.note (Log.debug
        ("Migrating ClickHouse schema from " ++ shownVersion v ++ " to " ++
          shownVersion Schema.version) [])
      upgrades clock (v + 1) (Schema.version - v).toNat
    else if Schema.version < v then
      Operation.lift (.error (.migration v "version_check"
        ("Database schema version " ++ signedNumeral v ++
          " is newer than application version " ++ signedNumeral Schema.version ++
          ". Upgrade the application.")))
    else
      Operation.note (Log.debug
        ("ClickHouse schema is up to date (" ++ shownVersion Schema.version ++ ")") [])

end Migration

end CohortQuery.Store
