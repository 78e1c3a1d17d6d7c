import CohortQuery.Log.Entry
import CohortQuery.Text.Pieces

/-!
# Filters of the log

A filter is a list of directives between commas: a level for all entries, or a level for
the entries of a target. The directive with the longest target that fits decides.
-/

set_option autoImplicit false

namespace CohortQuery.Log

def ownTarget : String := "cohortql_server"

structure Directive where
  target : String
  /-- The rank of the last level that is shown; nothing is shown for zero. -/
  shown : Nat
  deriving DecidableEq, Repr

abbrev Filter := List Directive

namespace Filter

def levelNames : List (String × Nat) :=
  [("off", 0), ("error", 1), ("warn", 2), ("info", 3), ("debug", 4), ("trace", 5),
    ("0", 0), ("1", 1), ("2", 2), ("3", 3), ("4", 4), ("5", 5)]

def readLevel? (s : List Char) : Option Nat :=
  levelNames.lookup (String.ofList (s.map Char.toLower))

/-- A target without a level shows everything. -/
def readDirective? (s : List Char) : Option Directive :=
  match readLevel? s with
  | some n => some ⟨"", n⟩
  | none =>
    let target := String.ofList (s.takeWhile (· ≠ '='))
    match s.dropWhile (· ≠ '=') with
    | [] | ['='] => some ⟨target, Level.trace.rank⟩
    | _ :: level => (readLevel? level).map (⟨target, ·⟩)

/-- A filter without directives shows errors only. -/
def read (s : String) : Filter :=
  let pieces := (Text.piecesOf ',' s.toList).filter (· ≠ [])
  match pieces.filterMap readDirective? with
  | [] => [⟨"", Level.error.rank⟩]
  | ds => ds

def fits (target : String) (d : Directive) : Bool :=
  d.target.toList.isPrefixOf target.toList

/-- The later one of two directives with targets of one length. -/
def longer (a b : Directive) : Directive :=
  if b.target.length < a.target.length then a else b

/-- The rank of the last level that is shown for a target. -/
def shownFor (f : Filter) (target : String) : Nat :=
  ((f.filter (fits target)).foldl longer ⟨"", 0⟩).shown

def shows (f : Filter) (e : Entry) : Bool :=
  e.level.rank ≤ f.shownFor ownTarget

end Filter

end CohortQuery.Log
