import CohortQuery.Proofs.Sql.Query
import CohortQuery.Proofs.Text.Like
import CohortQuery.Store.Record
import Mathlib.Data.List.Dedup

/-!
# The meaning of statements

What the statements that are read say of the tables of the store. A test has a truth value of
SQL; one whose value is not bound, or which asks a row for what it does not have, has none. A
row counts where its condition is true, not where it is NULL.
-/

set_option autoImplicit false

namespace CohortQuery

open Sql (Formula Truth)

namespace Binary64

/-- Where the number lies among all of them; `nan` lies nowhere. A finite number is a multiple
of the smallest one. -/
def rank? : Binary64 → Option (Int × Int)
  | nan => none
  | infinite negative => some (if negative then -1 else 1, 0)
  | finite negative m e =>
    let multiple : Int := (m <<< (e + 1074).toNat : Nat)
    some (0, if negative then -multiple else multiple)

def equal (x y : Binary64) : Bool :=
  x.rank?.isSome && x.rank? = y.rank?

def less (x y : Binary64) : Bool :=
  match x.rank?, y.rank? with
  | some a, some b => a.1 < b.1 || (a.1 = b.1 && a.2 < b.2)
  | _, _ => false

end Binary64

def Order.holds : Order → Binary64 → Binary64 → Bool
  | above, x, y => y.less x
  | atLeast, x, y => y.less x || x.equal y
  | below, x, y => x.less y
  | atMost, x, y => x.less y || x.equal y

def dayMillis : Int := 86400000

/-- The day on which the period begins in which a point lies, in UTC. Weeks begin on Monday;
1970-01-01 was a Thursday. -/
def Period.firstDay (period : Period) (millis : Int) : Int :=
  let day := millis / dayMillis
  match period with
  | .day => day
  | .week => day - (day + 3) % 7
  | .month => Time.Date.toDays { Time.Date.ofDays day with day := 1 }

namespace Store

/-- A row of events, as far as statements on cohorts ask for it. -/
structure Event where
  project : String
  name : String
  kind : String
  distinctId : String
  properties : String
  personProperties : String
  millis : Int
  deriving DecidableEq

def Event.bag (e : Event) : Sql.Bag → String
  | .event => e.properties
  | .person => e.personProperties

/-- A row of stored members. Its time of storage tells it from no other. -/
structure Membership where
  project : String
  cohort : String
  distinctId : String
  deriving DecidableEq

/-- The events as a statement with `FINAL` sees them, and the stored members, where equal rows
may not have become one yet. -/
structure Tables where
  events : List Event
  members : List Membership

/-- What the store brings to a statement: its clock, its reading of times and its functions on
JSON texts. -/
structure Engine where
  now : Int
  instant : String → Int
  /-- `JSONExtractString` of a JSON text and a key. -/
  text : String → String → String
  /-- `JSONExtractRaw`. -/
  raw : String → String → String
  /-- `JSONExtract` of a number that may be missing. -/
  number : String → String → Option Binary64
  /-- `toFloat64OrNull`. -/
  parse : String → Option Binary64

/-- The property as a number, or as a text that spells one. -/
def Engine.numeric (E : Engine) (json key : String) : Option Binary64 :=
  E.number json key <|> E.parse (E.text json key)

end Store

open Store (Engine Event Membership Tables)

namespace Value

def text? : Value → Option String
  | text s => some s
  | _ => none

def word? : Value → Option Nat
  | word n => some n
  | _ => none

def real? : Value → Option Binary64
  | real x => some x
  | _ => none

def uuid? : Value → Option String
  | uuid s => some s
  | _ => none

def time? : Value → Option String
  | time s => some s
  | _ => none

end Value

def Params.read {α : Type} (params : Params) (f : Value → Option α) (p : Placeholder) :
    Option α :=
  ((params.get? p.name).filter fun v => v.type = p.type).bind f

theorem read_bound {α : Type} {params : Params} {name : String} {v : Value}
    (h : params.get? name = some v) (f : Value → Option α) :
    params.read f ⟨name, v.type⟩ = f v := by
  simp [Params.read, h, Option.filter]

namespace Sql

section

variable (E : Engine) (params : Params)

def Moment.at : Moment → Option Int
  | now => some E.now
  | bound p => (params.read Value.time? p).map E.instant

def Start.at (s : Start) : Option Int :=
  match s.daysBefore with
  | none => s.moment.at E params
  | some p => do
    let t ← s.moment.at E params
    let days ← params.read Value.word? p
    return t - days * dayMillis

def PropertyTest.truth (json key : String) : PropertyTest → Truth
  | text negated p => (params.read Value.text? p).map fun s =>
    decide (E.text json key = s) != negated
  | flag negated p => (params.read Value.text? p).map fun s =>
    decide (E.raw json key = s) != negated
  | number negated p => (params.read Value.real? p).bind fun y =>
    match E.numeric json key with
    | none => if negated then some true else none
    | some x => some (x.equal y != negated)
  | ordered order p => (params.read Value.real? p).bind fun y =>
    (E.numeric json key).map fun x => order.holds x y
  | like negated p => (params.read Value.text? p).map fun s =>
    Text.Like.matchesAll s.toList (E.text json key).toList != negated
  | isSet negated => some (decide (E.raw json key ≠ "") != negated)

def RowTest.truth (e : Event) : RowTest → Truth
  | inProject => (params.read Value.uuid? Bindings.project).map fun s => decide (e.project = s)
  | equal .eventName p => (params.read Value.text? p).map fun s => decide (e.name = s)
  | equal .distinctId p => (params.read Value.text? p).map fun s => decide (e.distinctId = s)
  | equal .cohortId _ => none
  | notBefore s => (s.at E params).map fun t => decide (t ≤ e.millis)
  | notAfter m => (m.at E params).map fun t => decide (e.millis ≤ t)
  | property l t => t.truth E params (e.bag l.bag) l.key.text
  | notIdentify => some (decide (e.kind ≠ "identify"))

def RowTest.memberTruth (m : Membership) : RowTest → Truth
  | inProject => (params.read Value.uuid? Bindings.project).map fun s => decide (m.project = s)
  | equal .cohortId p => (params.read Value.text? p).map fun s => decide (m.cohort = s)
  | equal .distinctId p => (params.read Value.text? p).map fun s => decide (m.distinctId = s)
  | equal .eventName _ | notBefore _ | notAfter _ | property _ _ | notIdentify => none

def GroupTest.truth (es : List Event) : GroupTest → Truth
  | count op p => (params.read Value.word? p).map fun n => op.holds es.length n
  | periods period p => (params.read Value.word? p).map fun n =>
    decide (n ≤ (es.map fun e => period.firstDay e.millis).dedup.length)
  | firstNotBefore s => do
    let t ← s.at E params
    return decide (t ≤ (← (es.map Event.millis).min?))
  | firstNotAfter m => do
    let t ← m.at E params
    return decide ((← (es.map Event.millis).min?) ≤ t)

end

def Formula.value {α : Type} (truth : α → Truth) : Formula α → Truth
  | constant b => some b
  | test a => truth a
  | not f => Truth.not (f.value truth)
  | both f g => Truth.and (f.value truth) (g.value truth)
  | either f g => Truth.or (f.value truth) (g.value truth)

theorem all_of_true {α : Type} (ts : List α) (truth : α → Truth) :
    (allOf ts).value truth = some true ↔ ∀ t ∈ ts, truth t = some true := by
  induction ts with
  | nil => simp [allOf, Formula.all, Formula.value]
  | cons t ts ih =>
    cases ts with
    | nil => simp [allOf, Formula.all, Formula.value]
    | cons u us =>
      have hs : allOf (t :: u :: us) = .both (.test t) (allOf (u :: us)) := rfl
      rw [hs, Formula.value, and_true_iff, ih, List.forall_mem_cons (a := t)]
      rfl

section

variable (E : Engine) (params : Params) (tables : Tables)

def eventsWhere (condition : Formula RowTest) : List Event :=
  tables.events.filter fun e => condition.value (RowTest.truth E params e) = some true

/-- One group for each person that has a row, and the persons of the groups that satisfy their
condition; or the persons of the stored members that satisfy theirs. -/
def Subquery.ids : Subquery → List String
  | performed rows groups =>
    let es := eventsWhere E params tables rows
    (es.map Event.distinctId).dedup.filter fun id =>
      groups.value (GroupTest.truth E params (es.filter fun e => e.distinctId = id)) = some true
  | members rows =>
    (tables.members.filter fun m => rows.value (RowTest.memberTruth params m) = some true).map
      Membership.distinctId

def Test.truth (e : Event) : Test → Truth
  | row t => t.truth E params e
  | among q => some (decide (e.distinctId ∈ q.ids E params tables))

/-- The events that satisfy a condition on themselves and their persons. -/
def selected (condition : Formula Test) : List Event :=
  tables.events.filter fun e => condition.value (Test.truth E params tables e) = some true

end

theorem performed_ids (E : Engine) (params : Params) (tables : Tables) (rows : List RowTest)
    (groups : List GroupTest) (id : String) :
    id ∈ (Subquery.performed (allOf rows) (allOf groups)).ids E params tables ↔
      let es := tables.events.filter fun e =>
        e.distinctId = id ∧ ∀ t ∈ rows, t.truth E params e = some true
      es ≠ [] ∧ ∀ t ∈ groups, t.truth E params es = some true := by
  have hs : ((eventsWhere E params tables (allOf rows)).filter fun e => e.distinctId = id) =
      tables.events.filter fun e =>
        e.distinctId = id ∧ ∀ t ∈ rows, t.truth E params e = some true := by
    rw [eventsWhere, List.filter_filter]
    simp only [all_of_true, Bool.decide_and]
  have hn : id ∈ ((eventsWhere E params tables (allOf rows)).map Event.distinctId).dedup ↔
      ((eventsWhere E params tables (allOf rows)).filter fun e => e.distinctId = id) ≠ [] := by
    rw [List.mem_dedup, List.mem_map, ne_eq, List.filter_eq_nil_iff]
    simp
  rw [Subquery.ids, List.mem_filter, hn, hs]
  simp only [decide_eq_true_eq, all_of_true]

end Sql

end CohortQuery
