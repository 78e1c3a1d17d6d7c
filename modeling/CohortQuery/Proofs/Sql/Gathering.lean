import CohortQuery.Bindings
import CohortQuery.Sql.Select

/-!
# Statements gathered step by step

The text of a statement has every clause that was given something, in a fixed order, and each with
what it was given, in the order in which it came. So it does not matter how the steps for
different clauses are mixed, nor whether the text is written in between.
-/

set_option autoImplicit false

namespace CohortQuery.Sql.Select

inductive Clause where
  | distinct
  | columns
  | conditions
  | groups
  | groupConditions
  | order
  | limit
  | offset
  deriving DecidableEq

inductive Step where
  | distinct
  | column (e : String)
  | columnAs (e label : String)
  | filter (e : String)
  /-- A column is the value that is bound to the name. -/
  | filterEqual (name column : String) (v : Value)
  | groupBy (e : String)
  | having (e : String)
  | havingEqual (name column : String) (v : Value)
  | orderBy (e : String)
  | limitTo (e : String)
  | offsetBy (e : String)

/-- A statement in the making and the values that are bound for it. -/
structure Draft where
  select : Select
  bindings : Bindings

namespace Draft

def addEqual (d : Draft) (add : Select → String → Select) (name column : String) (v : Value) :
    Draft :=
  let (p, b) := d.bindings.bindNamed name v
  ⟨add d.select (column ++ " = " ++ p.render), b⟩

def take (d : Draft) : Step → Draft
  | .distinct => { d with select := d.select.distinct }
  | .column e => { d with select := d.select.column e }
  | .columnAs e label => { d with select := d.select.columnAs e label }
  | .filter e => { d with select := d.select.filter e }
  | .filterEqual name column v => d.addEqual Select.filter name column v
  | .groupBy e => { d with select := d.select.groupBy e }
  | .having e => { d with select := d.select.having e }
  | .havingEqual name column v => d.addEqual Select.having name column v
  | .orderBy e => { d with select := d.select.orderBy e }
  | .limitTo e => { d with select := d.select.limitTo e }
  | .offsetBy e => { d with select := d.select.offsetBy e }

def takeAll (d : Draft) (steps : List Step) : Draft :=
  steps.foldl take d

end Draft

/-- A step, or that the text is asked for. -/
inductive Call where
  | add (s : Step)
  | write

/-- The draft in the end, and the texts that were asked for. -/
def Draft.run (d : Draft) : List Call → Draft × List String
  | [] => (d, [])
  | .add s :: rest => (d.take s).run rest
  | .write :: rest => ((d.run rest).1, d.select.render :: (d.run rest).2)

def stepsOf : List Call → List Step
  | [] => []
  | .add s :: rest => s :: stepsOf rest
  | .write :: rest => stepsOf rest

/-- The steps before each place where the text is asked for; those `before` came earlier. -/
def stepsWritten (before : List Step) : List Call → List (List Step)
  | [] => []
  | .add s :: rest => stepsWritten (before ++ [s]) rest
  | .write :: rest => before :: stepsWritten before rest

namespace Step

def clause : Step → Clause
  | distinct => .distinct
  | column _ | columnAs _ _ => .columns
  | filter _ | filterEqual _ _ _ => .conditions
  | groupBy _ => .groups
  | having _ | havingEqual _ _ _ => .groupConditions
  | orderBy _ => .order
  | limitTo _ => .limit
  | offsetBy _ => .offset

def text : Step → String
  | .distinct => "DISTINCT"
  | .column e | .filter e | .groupBy e | .having e | .orderBy e | .limitTo e | .offsetBy e => e
  | .columnAs e label => e ++ " AS " ++ label
  | .filterEqual name subject v | .havingEqual name subject v =>
    subject ++ " = " ++ Placeholder.render ⟨name, v.type⟩

end Step

def given (steps : List Step) (c : Clause) : List String :=
  (steps.filter fun s => s.clause = c).map Step.text

/-- What a clause shows of what it is given: the last one of limits and of offsets, once that
rows are distinct, and all of the others. -/
def Clause.shows : Clause → List String → List String
  | distinct, es => es.take 1
  | limit, es | offset, es => es.getLast?.toList
  | columns, es | conditions, es | groups, es | groupConditions, es | order, es => es

def content (q : Select) : Clause → List String
  | .distinct => if q.isDistinct then ["DISTINCT"] else []
  | .columns => q.columns
  | .conditions => q.conditions
  | .groups => q.groups
  | .groupConditions => q.groupConditions
  | .order => q.order
  | .limit => q.limit.toList
  | .offset => q.offset.toList

/-- The draft shows just what the steps give to its clauses. -/
structure Draft.Holds (d : Draft) (source : String) (steps : List Step) : Prop where
  source : d.select.source = source
  content : ∀ c, d.select.content c = c.shows (given steps c)

theorem given_step (steps : List Step) (s : Step) (c : Clause) :
    given (steps ++ [s]) c = given steps c ++ if s.clause = c then [s.text] else [] := by
  by_cases h : s.clause = c <;> simp [given, h]

def put (q : Select) (e : String) : Clause → Select
  | .distinct => q.distinct
  | .columns => q.column e
  | .conditions => q.filter e
  | .groups => q.groupBy e
  | .groupConditions => q.having e
  | .order => q.orderBy e
  | .limit => q.limitTo e
  | .offset => q.offsetBy e

theorem take_put (d : Draft) (s : Step) : (d.take s).select = d.select.put s.text s.clause := by
  cases s <;> rfl

theorem put_other (q : Select) (e : String) {c k : Clause} (h : c ≠ k) :
    (q.put e c).content k = q.content k := by
  cases c <;> cases k <;> first | rfl | exact absurd rfl h

theorem put_content (q : Select) (e : String) (c : Clause) (h : c = .distinct → e = "DISTINCT") :
    (q.put e c).content c = c.shows (q.content c ++ [e]) := by
  cases c with
  | distinct =>
    obtain rfl := h rfl
    change ["DISTINCT"] = (q.content .distinct ++ ["DISTINCT"]).take 1
    unfold content
    dsimp only
    split <;> rfl
  | limit | offset => simp [put, content, Clause.shows, limitTo, offsetBy]
  | columns | conditions | groups | groupConditions | order => rfl

theorem shows_more (c : Clause) (es : List String) (e : String) :
    c.shows (c.shows es ++ [e]) = c.shows (es ++ [e]) := by
  cases c with
  | distinct => cases es <;> simp [Clause.shows]
  | limit | offset => simp [Clause.shows]
  | columns | conditions | groups | groupConditions | order => rfl

theorem of_holds (source : String) (b : Bindings) :
    Draft.Holds ⟨.of source, b⟩ source [] := by
  refine ⟨rfl, fun c => ?_⟩
  cases c <;> rfl

theorem take_holds {d : Draft} {source : String} {steps : List Step} (h : d.Holds source steps)
    (s : Step) : (d.take s).Holds source (steps ++ [s]) := by
  constructor
  · rw [take_put]
    cases s <;> exact h.source
  · intro c
    rw [take_put, given_step]
    by_cases hc : s.clause = c
    · subst hc
      have hd : s.clause = .distinct → s.text = "DISTINCT" := by
        cases s <;> simp [Step.clause, Step.text]
      rw [put_content _ _ _ hd, h.content, if_pos rfl, shows_more]
    · rw [put_other _ _ hc, h.content, if_neg hc, List.append_nil]

theorem take_all_holds {d : Draft} {source : String} {before : List Step}
    (h : d.Holds source before) (steps : List Step) :
    (d.takeAll steps).Holds source (before ++ steps) := by
  induction steps generalizing d before with
  | nil =>
    rw [List.append_nil]
    exact h
  | cons s steps ih =>
    rw [List.append_cons]
    exact ih (take_holds h s)

def worded (word separator : String) (es : List String) : List String :=
  if es.isEmpty then [] else [word, Text.join separator es]

def spelled (source : String) (content : Clause → List String) : String :=
  Text.join " " (["SELECT"] ++ content .distinct ++
    [if (content .columns).isEmpty then "*" else Text.join ", " (content .columns)] ++
    ["FROM", source] ++
    worded "WHERE" " AND " (content .conditions) ++
    worded "GROUP BY" ", " (content .groups) ++
    worded "HAVING" " AND " (content .groupConditions) ++
    worded "ORDER BY" ", " (content .order) ++
    worded "LIMIT" ", " (content .limit) ++
    worded "OFFSET" ", " (content .offset))

def behind : List String → String
  | [] => ""
  | e :: es => " " ++ e ++ behind es

theorem behind_append (es fs : List String) : behind (es ++ fs) = behind es ++ behind fs := by
  induction es with
  | nil => simp [behind]
  | cons e es ih => simp only [List.cons_append, behind, ih, String.append_assoc]

theorem join_behind (e : String) (es : List String) : Text.join " " (e :: es) = e ++ behind es := by
  induction es generalizing e with
  | nil => simp [Text.join, behind]
  | cons f es ih => simp only [Text.join, ih, behind, String.append_assoc]

theorem clause_behind {keyword word : String} (hk : keyword = " " ++ word ++ " ")
    (separator : String) (es : List String) :
    clause keyword (Text.join separator) es = behind (worded word separator es) := by
  unfold clause worded
  split
  next => rfl
  next => simp [behind, hk, String.append_assoc]

theorem option_behind {keyword word : String} (hk : keyword = " " ++ word ++ " ")
    (separator : String) (o : Option String) :
    optionClause keyword o = behind (worded word separator o.toList) := by
  cases o <;> simp [optionClause, worded, behind, Text.join, hk, String.append_assoc]

theorem render_spelled (q : Select) : q.render = spelled q.source q.content := by
  have hw : " WHERE " = " " ++ "WHERE" ++ " " := by decide
  have hg : " GROUP BY " = " " ++ "GROUP BY" ++ " " := by decide
  have hh : " HAVING " = " " ++ "HAVING" ++ " " := by decide
  have ho : " ORDER BY " = " " ++ "ORDER BY" ++ " " := by decide
  have hl : " LIMIT " = " " ++ "LIMIT" ++ " " := by decide
  have hs : " OFFSET " = " " ++ "OFFSET" ++ " " := by decide
  have hf : " FROM " = " " ++ "FROM" ++ " " := by decide
  have front : "SELECT " ++ (if q.isDistinct then "DISTINCT " else "") =
      "SELECT" ++ behind (if q.isDistinct then ["DISTINCT"] else []) ++ " " := by
    cases q.isDistinct <;> decide
  simp only [spelled, content, List.append_assoc, List.cons_append, List.nil_append, join_behind,
    behind_append, behind, ← clause_behind hw, ← clause_behind hg, ← clause_behind hh,
    ← clause_behind ho, ← option_behind hl, ← option_behind hs]
  unfold render
  simp only [front, hf, String.append_assoc]
  rfl

/-- The text that steps ask for, whatever the order in which they come for different clauses. -/
def asked (source : String) (steps : List Step) : String :=
  spelled source fun c => c.shows (given steps c)

theorem holds_render {d : Draft} {source : String} {steps : List Step}
    (h : d.Holds source steps) : d.select.render = asked source steps := by
  rw [render_spelled, h.source, funext h.content]
  rfl

theorem run_draft (d : Draft) (calls : List Call) :
    (d.run calls).1 = d.takeAll (stepsOf calls) := by
  induction calls generalizing d with
  | nil => rfl
  | cons call calls ih =>
    cases call with
    | add s => exact ih (d.take s)
    | write => exact ih d

theorem run_texts {d : Draft} {source : String} {before : List Step} (h : d.Holds source before)
    (calls : List Call) :
    (d.run calls).2 = (stepsWritten before calls).map (asked source) := by
  induction calls generalizing d before with
  | nil => rfl
  | cons call calls ih =>
    cases call with
    | add s => exact ih (take_holds h s)
    | write => rw [Draft.run, stepsWritten, List.map_cons, ih h, holds_render h]

/-- The text of a statement shows what each clause was given, in a fixed order of the clauses. To
ask for it changes nothing, and steps for different clauses may be mixed in any way. -/
theorem clauses_gathered (source : String) (b b' : Bindings) :
    (∀ calls : List Call, let ended := Draft.run ⟨.of source, b⟩ calls
      ended.1 = Draft.takeAll ⟨.of source, b⟩ (stepsOf calls) ∧
      ended.1.select.render = asked source (stepsOf calls) ∧
      ended.2 = (stepsWritten [] calls).map (asked source)) ∧
    ∀ calls calls' : List Call, (∀ c : Clause,
        (stepsOf calls).filter (fun s => s.clause = c) =
          (stepsOf calls').filter fun s => s.clause = c) →
      (Draft.run ⟨.of source, b⟩ calls).1.select.render =
        (Draft.run ⟨.of source, b'⟩ calls').1.select.render := by
  have text (b : Bindings) (calls : List Call) :
      (Draft.run ⟨.of source, b⟩ calls).1.select.render = asked source (stepsOf calls) := by
    rw [run_draft]
    exact holds_render (take_all_holds (of_holds source b) (stepsOf calls))
  refine ⟨fun calls => ⟨run_draft _ calls, text b calls, run_texts (of_holds source b) calls⟩, ?_⟩
  intro calls calls' h
  have same : given (stepsOf calls) = given (stepsOf calls') :=
    funext fun c => congrArg (List.map Step.text) (h c)
  rw [text, text, asked, same, asked]

def orderedCalls : List Call :=
  [.distinct, .columnAs "count()" "n", .column "event_name", .filter "a = 1",
    .filterEqual "ev" "event_name" (.text "visit"), .groupBy "event_name", .having "n > 1",
    .havingEqual "ev" "min(day)" (.word 3), .orderBy "n DESC", .limitTo "1", .limitTo "5",
    .offsetBy "10"].map .add

def mixedCalls : List Call :=
  [.add (.limitTo "1"), .add (.having "n > 1"), .write, .add (.columnAs "count()" "n"),
    .add (.filter "a = 1"), .add (.havingEqual "ev" "min(day)" (.word 3)), .write,
    .add (.offsetBy "10"), .add (.column "event_name"), .add (.orderBy "n DESC"), .add .distinct,
    .add (.filterEqual "ev" "event_name" (.text "visit")), .write, .add (.limitTo "5"),
    .add (.groupBy "event_name")]

theorem calls_mixed :
    (∀ c : Clause, (stepsOf orderedCalls).filter (fun s => s.clause = c) =
      (stepsOf mixedCalls).filter fun s => s.clause = c) ∧
    let draft := Draft.mk (.of "events FINAL") ⟨[], 0, none⟩
    (draft.run mixedCalls).1.select.render = (draft.run orderedCalls).1.select.render ∧
    (draft.run mixedCalls).1.select.render =
      "SELECT DISTINCT count() AS n, event_name FROM events FINAL " ++
        "WHERE a = 1 AND event_name = {ev:String} GROUP BY event_name " ++
        "HAVING n > 1 AND min(day) = {ev:UInt32} ORDER BY n DESC LIMIT 5 OFFSET 10" := by
  have same : ∀ c : Clause, (stepsOf orderedCalls).filter (fun s => s.clause = c) =
      (stepsOf mixedCalls).filter fun s => s.clause = c := by
    intro c
    cases c <;> rfl
  obtain ⟨gathered, mixed⟩ := clauses_gathered "events FINAL" ⟨[], 0, none⟩ ⟨[], 0, none⟩
  refine ⟨same, mixed _ _ fun c => (same c).symm, ?_⟩
  exact (gathered mixedCalls).2.1.trans (by decide +kernel)

end CohortQuery.Sql.Select
