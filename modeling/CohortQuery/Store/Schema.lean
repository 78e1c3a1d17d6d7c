import CohortQuery.Settings.Basic
import CohortQuery.Text.Like

/-!
# The schema of the store

The statements that make a fresh database, in the order in which they depend on each
other. The dictionary connects back to the store, so it holds the database and the
credentials as string literals.
-/

set_option autoImplicit false

namespace CohortQuery.Store.Schema

def version : Int := 1

/-- The upgrades between versions: the version that each makes, its name and statement. -/
def upgrades : List (Int × String × String) := []

def upgrade? (version : Int) : Option (String × String) :=
  upgrades.lookup version

def statement (lines : List String) : String :=
  "\n" ++ Text.join "\n" lines ++ "\n"

def versionTable : String :=
  statement [
    "CREATE TABLE IF NOT EXISTS schema_version (",
    "    id UInt8,",
    "    version Int32,",
    "    applied_at Int64,",
    "    description Nullable(String)",
    ") ENGINE = ReplacingMergeTree()",
    "ORDER BY id"]

def eventsTable : String :=
  statement [
    "CREATE TABLE IF NOT EXISTS events (",
    "    -- IDENTITY",
    "    project_id          UUID,",
    "    event_id            UUID,",
    "    event_name          LowCardinality(String),",
    "    event_type          LowCardinality(String) DEFAULT 'track',",
    "",
    "    -- ACTOR",
    "    distinct_id         String,",
    "    person_id           String,",
    "    session_id          String DEFAULT '',",
    "",
    "    -- PAYLOAD",
    "    properties          String DEFAULT '\x7b\x7d',",
    "    person_properties   String DEFAULT '\x7b\x7d',",
    "",
    "    -- TIMING",
    "    timestamp           DateTime64(3, 'UTC'),",
    "    ingested_at         DateTime64(3, 'UTC') DEFAULT now64(3),",
    "",
    "    INDEX idx_distinct_id distinct_id TYPE bloom_filter(0.01) GRANULARITY 4,",
    "    INDEX idx_session_id session_id TYPE bloom_filter(0.01) GRANULARITY 4",
    ") ENGINE = ReplacingMergeTree(ingested_at)",
    "PARTITION BY toYYYYMM(timestamp)",
    "ORDER BY (project_id, event_name, toDate(timestamp), distinct_id, event_id)"]

def overridesTable : String :=
  statement [
    "CREATE TABLE IF NOT EXISTS person_overrides (",
    "    project_id          UUID,",
    "    distinct_id         String,",
    "    person_id           String,",
    "    version             UInt64",
    ") ENGINE = ReplacingMergeTree(version)",
    "ORDER BY (project_id, distinct_id)"]

def membersTable : String :=
  statement [
    "CREATE TABLE IF NOT EXISTS cohort_members (",
    "    project_id          UUID,",
    "    cohort_id           String,",
    "    distinct_id         String,",
    "    created_at          DateTime64(3, 'UTC') DEFAULT now64(3)",
    ") ENGINE = ReplacingMergeTree(created_at)",
    "ORDER BY (project_id, cohort_id, distinct_id)"]

/-- A text inside a single-quoted literal. Its backslashes are guarded first; those that come with
the quotes are not guarded again. -/
def literal (s : String) : String :=
  String.ofList (Text.Like.guardAll '\'' (Text.Like.guardAll '\\' s.toList))

def credential (word : String) : Option String → String
  | none => ""
  | some s => " " ++ word ++ " '" ++ literal s ++ "'"

def dictionarySource (s : Settings.Store) : String :=
  "QUERY 'SELECT project_id, distinct_id, argMax(person_id, version) AS person_id FROM " ++
    literal s.database ++ ".person_overrides GROUP BY project_id, distinct_id'" ++
    credential "USER" s.user ++ credential "PASSWORD" s.password

def dictionary (s : Settings.Store) : String :=
  statement [
    "CREATE DICTIONARY IF NOT EXISTS person_overrides_dict (",
    "    project_id          UUID,",
    "    distinct_id         String,",
    "    person_id           String",
    ")",
    "PRIMARY KEY project_id, distinct_id",
    "SOURCE(CLICKHOUSE(" ++ dictionarySource s ++ "))",
    "LAYOUT(COMPLEX_KEY_HASHED())",
    "LIFETIME(MIN 30 MAX 60)"]

def statements (s : Settings.Store) : List String :=
  [versionTable, eventsTable, overridesTable, dictionary s, membersTable]

end CohortQuery.Store.Schema
