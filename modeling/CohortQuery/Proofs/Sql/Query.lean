import CohortQuery.Proofs.Sql.Clause
import CohortQuery.Proofs.Sql.Reader

/-!
# Reading statements

The statements on events and on stored members are read from their texts, clause by clause,
down to the single tests of their conditions. Of a predicate the text says exactly what its
tree says.
-/

set_option autoImplicit false

namespace CohortQuery

namespace Sql

namespace Formula

variable {α β : Type}

/-- The formula with its tests read, if they all can be. -/
def traverse (f : α → Option β) : Formula α → Option (Formula β)
  | constant b => some (constant b)
  | test a => (f a).map test
  | not g => (g.traverse f).map not
  | both g h => do return both (← g.traverse f) (← h.traverse f)
  | either g h => do return either (← g.traverse f) (← h.traverse f)

def join : Junction → List (Formula α) → Formula α
  | .and => all
  | .or => any

theorem traverse_join (j : Junction) (f : α → Option β) {gs : List (Formula α)}
    {hs : List (Formula β)} (h : List.Forall₂ (fun g k => g.traverse f = some k) gs hs) :
    (join j gs).traverse f = some (join j hs) := by
  induction h with
  | nil => cases j <;> rfl
  | cons hg hr ih =>
    cases hr with
    | nil => cases j <;> exact hg
    | cons hh hr =>
      cases j <;> simp only [join] at ih ⊢
      · rw [all, traverse, hg, ih]
        rfl
      · rw [any, traverse, hg, ih]
        rfl

end Formula

def allOf {α : Type} (ts : List α) : Formula α :=
  .all (ts.map .test)

structure Clauses where
  head : List Sign
  source : Option (List Sign)
  condition : Option Reading
  keys : Option (List Sign)
  groupCondition : Option Reading
  order : Option (List Sign)
  limit : Option (List Sign)
  offset : Option (List Sign)

def Clauses.ofScope? (scope : List Item) : Option Clauses :=
  if scope.any Item.opensScope then none
  else do
    return {
      head := ← signs? (headOf scope)
      source := ← (clauseOf "FROM" scope).mapM signs?
      condition := ← (clauseOf "WHERE" scope).mapM formula
      keys := ← (clauseOf "GROUP" scope).mapM signs?
      groupCondition := ← (clauseOf "HAVING" scope).mapM formula
      order := ← (clauseOf "ORDER" scope).mapM signs?
      limit := ← (clauseOf "LIMIT" scope).mapM signs?
      offset := ← (clauseOf "OFFSET" scope).mapM signs? }

theorem padded_bare {is js : List Item} (h : Padded is js) : bare js = bare is := by
  have hb {ks : List Item} (hk : ∀ k ∈ ks, k.isBlank = true) : bare ks = [] := by
    simpa [bare] using hk
  obtain ⟨before, after, rfl, hf, ha⟩ := h
  have happend (ks ls : List Item) : bare (ks ++ ls) = bare ks ++ bare ls := List.filter_append ..
  rw [happend, happend, hb hf, hb ha, List.nil_append, List.append_nil]

theorem padded_signs {is js : List Item} (h : Padded is js) : signs? js = signs? is := by
  rw [← signs_bare js, padded_bare h, signs_bare]

def Clauses.ofParts? (head : List Item) (clauses : List (String × List Item)) :
    Option Clauses := do
  return {
    head := ← signs? head
    source := ← (clauses.lookup "FROM").mapM signs?
    condition := ← (clauses.lookup "WHERE").mapM formula
    keys := ← (clauses.lookup "GROUP").mapM signs?
    groupCondition := ← (clauses.lookup "HAVING").mapM formula
    order := ← (clauses.lookup "ORDER").mapM signs?
    limit := ← (clauses.lookup "LIMIT").mapM signs?
    offset := ← (clauses.lookup "OFFSET").mapM signs? }

theorem clauses_read {head : List Item} {clauses : List (String × List Item)}
    (hh : Clauseless head) (hc : ∀ c ∈ clauses, c.1 ∈ clauseWords ∧ Clauseless c.2)
    (ho : ∀ i ∈ head ++ clauseList clauses, i.opensScope = false) :
    Clauses.ofScope? (head ++ clauseList clauses) = Clauses.ofParts? head clauses := by
  have found (keyword : String) (hk : keyword ∈ clauseWords) :=
    clause_found hk (clauseless_word hh hk) clauses hc
  have clause {α : Type} {keyword : String} (hk : keyword ∈ clauseWords)
      (f : List Item → Option α) (hf : ∀ is js, Padded is js → f js = f is) :
      (clauseOf keyword (head ++ clauseList clauses)).mapM f =
        (clauses.lookup keyword).mapM f := by
    have hc := found keyword hk
    cases hl : clauses.lookup keyword with
    | none =>
      rw [hl] at hc
      rw [hc]
    | some body =>
      rw [hl] at hc
      obtain ⟨is, hi, hp⟩ := hc
      rw [hi, Option.mapM_some, Option.mapM_some, hf body is hp]
  have hs (keyword : String) (hk : keyword ∈ clauseWords) :=
    clause hk signs? fun _ _ hp => padded_signs hp
  have hf (keyword : String) (hk : keyword ∈ clauseWords) :=
    clause hk formula fun _ _ hp => padded_formula hp
  have hhead : signs? (headOf (head ++ clauseList clauses)) = signs? head := by
    obtain ⟨after, ha, hb⟩ := head_found hh clauses fun c hm => (hc c hm).1
    rw [ha]
    exact padded_signs ⟨[], after, rfl, by simp, hb⟩
  have hn : (head ++ clauseList clauses).any Item.opensScope = false := by
    simpa only [List.any_eq_false, Bool.not_eq_true] using ho
  simp only [Clauses.ofScope?, hn, hhead, hs _ (by decide : "FROM" ∈ clauseWords),
    hf _ (by decide : "WHERE" ∈ clauseWords), hs _ (by decide : "GROUP" ∈ clauseWords),
    hf _ (by decide : "HAVING" ∈ clauseWords), hs _ (by decide : "ORDER" ∈ clauseWords),
    hs _ (by decide : "LIMIT" ∈ clauseWords), hs _ (by decide : "OFFSET" ∈ clauseWords)]
  rfl

theorem select_clauses_read {q : Select} (h : Tidy q) (ho : ∀ i ∈ q.scope, i.opensScope = false) :
    Clauses.ofScope? q.scope = Clauses.ofParts? q.heading q.clauses := by
  rw [scope_clauses] at ho ⊢
  exact clauses_read (tidy_heading h) (tidy_clauses h) ho

def rowTestOf? (is : List Item) : Option RowTest :=
  (signs? is).bind rowTest?

def groupTestOf? (is : List Item) : Option GroupTest :=
  (signs? is).bind groupTest?

theorem row_test_of (t : RowTest) (h : t.Proper) : rowTestOf? (bare t.items) = some t := by
  rw [rowTestOf?, signs_bare, row_signs t h, Option.bind_some, row_test_read]

theorem group_test_of (t : GroupTest) (h : t.Proper) : groupTestOf? (bare t.items) = some t := by
  rw [groupTestOf?, signs_bare, group_test_signs t h, Option.bind_some, group_test_read]

theorem traverse_tests {α : Type} {f : List Item → Option α} (ts : List α)
    (items : α → List Item) (h : ∀ t ∈ ts, f (items t) = some t) :
    (Formula.all (ts.map fun t => .test (items t))).traverse f = some (allOf ts) := by
  refine Formula.traverse_join .and f ?_
  rw [List.forall₂_map_left_iff, List.forall₂_map_right_iff, List.forall₂_same]
  intro t ht
  rw [Formula.traverse, h t ht]
  rfl

theorem clauseless_hole (p : Placeholder) : Clauseless [hole p] := by
  intro i hi
  obtain rfl := List.mem_singleton.mp hi
  rfl

theorem clauseless_call {name : String} (h : (word name).startsClause = false) (is : List Item) :
    Clauseless (call name is) := by
  intro i hi
  simp only [call, List.mem_cons, List.not_mem_nil, or_false] at hi
  rcases hi with rfl | rfl
  · exact h
  · rfl

theorem clauseless_start (s : Start) : Clauseless s.items := by
  obtain ⟨m, days⟩ := s
  have hm : Clauseless m.items := by
    cases m with
    | now => exact clauseless_call (by decide) _
    | bound p => exact clauseless_hole p
  cases days with
  | none => exact clauseless_append hm (by decide : Clauseless [])
  | some p =>
    exact clauseless_append hm (clauseless_append (clauseless_append (by decide)
      (clauseless_hole p)) (by decide))

theorem clauseless_property (l : Lookup) (t : PropertyTest) : Clauseless (t.items l) := by
  have he (negated : Bool) : Clauseless (equalityItems negated) := by cases negated <;> decide
  have hn : Clauseless l.numberItems := clauseless_call (by decide) _
  have ht : Clauseless l.textItems := clauseless_call (by decide) _
  cases t with
  | text negated p =>
    exact clauseless_append (clauseless_append ht (he negated)) (clauseless_hole p)
  | flag negated p =>
    exact clauseless_append (clauseless_append (clauseless_call (by decide) _) (he negated))
      (clauseless_hole p)
  | number negated p =>
    cases negated with
    | false => exact clauseless_append (clauseless_append hn (he false)) (clauseless_hole p)
    | true => exact clauseless_call (by decide) _
  | ordered order p =>
    have hs : Clauseless (symbol order.symbol) := by cases order <;> decide
    have hb : Clauseless [blank] := by decide
    exact clauseless_append (clauseless_append (clauseless_append (clauseless_append hn hb) hs) hb)
      (clauseless_hole p)
  | like negated p =>
    refine clauseless_append (clauseless_append ht ?_) (clauseless_hole p)
    cases negated <;> decide
  | isSet negated =>
    refine clauseless_append (clauseless_append (clauseless_call (by decide) _) (by decide)) ?_
    cases negated <;> decide

theorem clauseless_row (t : RowTest) : Clauseless t.items := by
  cases t with
  | inProject => decide
  | equal column p =>
    have hc : Clauseless (word column.render :: equalityItems false) := by cases column <;> decide
    exact clauseless_append hc (clauseless_hole p)
  | notBefore s =>
    have hw : Clauseless (word "timestamp" :: notLess) := by decide
    exact clauseless_append hw (clauseless_start s)
  | notAfter m =>
    have hw : Clauseless (word "timestamp" :: notMore) := by decide
    have hm := clauseless_start ⟨m, none⟩
    rw [Start.items, List.append_nil] at hm
    exact clauseless_append hw hm
  | property l t => exact clauseless_property l t
  | notIdentify => decide

theorem clauseless_group (t : GroupTest) : Clauseless t.items := by
  have hm : Clauseless (call "min" [word "timestamp"]) := clauseless_call (by decide) _
  cases t with
  | count op p =>
    have hs : Clauseless (call "count" [] ++ [blank] ++ symbol op.symbol ++ [blank]) := by
      cases op <;> decide
    exact clauseless_append hs (clauseless_hole p)
  | periods period p =>
    exact clauseless_append (clauseless_append (clauseless_call (by decide) _) (by decide))
      (clauseless_hole p)
  | firstNotBefore s =>
    exact clauseless_append (clauseless_append hm (by decide)) (clauseless_start s)
  | firstNotAfter m =>
    have hs := clauseless_start ⟨m, none⟩
    rw [Start.items, List.append_nil] at hs
    exact clauseless_append (clauseless_append hm (by decide)) hs

/-- The statement inside of a test on a person. -/
inductive Subquery where
  | performed (rows : Formula RowTest) (groups : Formula GroupTest)
  | members (rows : Formula RowTest)

def Subquery.ofClauses? (c : Clauses) : Option Subquery :=
  match c with
  | ⟨[.name "distinct_id"], some [.name "events", .name "FINAL"], some rows,
      some [.name "BY", .name "distinct_id"], some groups, none, none, none⟩ => do
    return .performed (← rows.traverse rowTestOf?) (← groups.traverse groupTestOf?)
  | ⟨[.name "distinct_id"], some [.name "cohort_members"], some rows, none, none, none, none, none⟩ =>
    (rows.traverse rowTestOf?).map .members
  | _ => none

def Subquery.ofItems? : List Item → Option Subquery
  | [] => none
  | i :: scope =>
    if i.isWord "SELECT" then (Clauses.ofScope? scope).bind Subquery.ofClauses? else none

def Subquery.read (s : String) : Option Subquery :=
  (Sql.read s).bind Subquery.ofItems?

/-- A test on a row, or on the statement that gives its person. -/
inductive Test where
  | row (t : RowTest)
  | among (q : Subquery)

def Test.ofItems? : List Item → Option Test
  | [.token (.word column), .token (.word relation), .group is] =>
    if column = "distinct_id".toList ∧ relation = "IN".toList then
      (Subquery.ofItems? is).map .among
    else none
  | is => (rowTestOf? is).map .row

inductive Statement where
  /-- The persons with an event that satisfies the condition. -/
  | listing (condition : Formula Test)
  /-- Stores these persons as members of the cohort. -/
  | insert (cohort : Placeholder) (condition : Formula Test)
  /-- Removes stored members. -/
  | clear (condition : Formula RowTest)
  | count (condition : Formula RowTest)

def Statement.ofClauses? (front : List Sign) (opening : Sign) (c : Clauses) : Option Statement :=
  match front, opening, c with
  | [], .name "SELECT", ⟨.name "DISTINCT" :: .name "distinct_id" :: .mark ',' :: _,
      some [.name "events", .name "FINAL"], some φ, none, none, _, none, none⟩ =>
    (φ.traverse Test.ofItems?).map .listing
  | [.name "INSERT", .name "INTO", .name "cohort_members", .mark '(', .name "project_id",
      .mark ',', .name "cohort_id", .mark ',', .name "distinct_id", .mark ')'], .name "SELECT",
      ⟨[.name "DISTINCT", .name "project_id", .mark ',', .value cohort, .mark ',',
        .name "distinct_id"], some [.name "events", .name "FINAL"], some φ, none, none, none, none,
        none⟩ =>
    (φ.traverse Test.ofItems?).map (.insert cohort)
  | [], .name "DELETE", ⟨[], some [.name "cohort_members"], some φ, none, none, none, none, none⟩ =>
    (φ.traverse rowTestOf?).map .clear
  | [], .name "SELECT", ⟨[.name "count", .mark '(', .mark ')'],
      some [.name "cohort_members", .name "FINAL"], some φ, none, none, none, none, none⟩ =>
    (φ.traverse rowTestOf?).map .count
  | _, _, _ => none

def Statement.ofItems? (is : List Item) : Option Statement :=
  match is.dropWhile fun i => !i.opensScope with
  | .token t :: scope => do
    Statement.ofClauses? (← signs? (is.takeWhile fun i => !i.opensScope)) (← t.sign?)
      (← Clauses.ofScope? scope)
  | _ => none

def Statement.read (s : String) : Option Statement :=
  (Sql.read s).bind Statement.ofItems?

namespace Fragment

/-- The statement in the leaf asks for rows, and for groups if it makes any. -/
def Full : Fragment → Prop
  | property _ _ => True
  | performed rows groups => rows ≠ [] ∧ groups ≠ []
  | member rows _ => rows ≠ []

/-- What the leaf says of a row. -/
def typed : Fragment → Formula Test
  | property l t => .test (.row (.property l t))
  | performed rows groups => .test (.among (.performed (allOf rows) (allOf groups)))
  | member rows false => .test (.among (.members (allOf rows)))
  | member rows true => .not (.test (.among (.members (allOf rows))))

end Fragment

def Predicate.typed (p : Predicate) : Formula Test :=
  p.fold Fragment.typed Formula.join

theorem distinct_id_signs : Signs (phrase "distinct_id") [.name "distinct_id"] := by
  rw [distinct_id_phrase]
  exact signs_word "distinct_id"

theorem person_heading {q : Select} (hd : q.isDistinct = false) (hc : q.columns = ["distinct_id"]) :
    signs? q.heading = some [.name "distinct_id"] := by
  have hh : q.heading = [blank] ++ phrase "distinct_id" := by
    simp [Select.heading, hd, hc, between]
  rw [hh]
  exact signs_append (signs_blank (i := blank) rfl) distinct_id_signs

theorem by_distinct_id_signs :
    signs? (byItems ++ phrase "distinct_id") = some [.name "BY", .name "distinct_id"] := by
  have hb : Signs byItems [.name "BY"] := rfl
  exact signs_append hb distinct_id_signs

theorem events_signs : signs? (phrase eventsTable) = some [.name "events", .name "FINAL"] := by
  rw [events_phrase]
  rfl

theorem members_signs : signs? (phrase membersTable) = some [.name "cohort_members"] := by
  rw [members_phrase]
  rfl

theorem fragment_tidy {f : Fragment} (h : f.Proper) {q : Select} (hq : f.select? = some q) :
    Tidy q := by
  have rows {ts : List RowTest} (ht : ∀ t ∈ ts, t.Proper) :
      ∀ e ∈ ts.map RowTest.render, Clauseless (phrase e) := by
    intro e he
    obtain ⟨t, hm, rfl⟩ := List.mem_map.mp he
    rw [row_phrase t (ht t hm)]
    exact clauseless_row t
  have hd : Clauseless (phrase "distinct_id") := by
    rw [distinct_id_phrase]
    decide
  cases f with
  | property l t => simp [Fragment.select?] at hq
  | performed ts groups =>
    obtain rfl := Option.some.inj hq
    have hg : ∀ e ∈ groups.map GroupTest.render, Clauseless (phrase e) := by
      intro e he
      obtain ⟨t, hm, rfl⟩ := List.mem_map.mp he
      rw [phrase_reads (group_test_reads t (h.2 t hm))]
      exact clauseless_group t
    have hs : Clauseless (phrase eventsTable) := by
      rw [events_phrase]
      decide
    intro e he
    simp only [Select.surroundings, Fragment.performedSelect, Select.of, List.mem_append,
      List.mem_cons, List.not_mem_nil, Option.toList_none, or_false] at he
    rcases he with (rfl | (rfl | rfl) | he) | he
    · exact hs
    · exact hd
    · exact hd
    · exact hg e he
    · exact rows h.1 e he
  | member ts negated =>
    obtain rfl := Option.some.inj hq
    have hs : Clauseless (phrase membersTable) := by
      rw [members_phrase]
      decide
    intro e he
    simp only [Select.surroundings, Fragment.memberSelect, Select.of, List.mem_append,
      List.mem_cons, List.not_mem_nil, Option.toList_none, or_false] at he
    rcases he with (rfl | rfl) | he
    · exact hs
    · exact hd
    · exact rows h e he

theorem selects_closed {q : Select} {ts : List RowTest} (h : Selects q ts) :
    ∀ i ∈ q.scope, i.opensScope = false :=
  scope_closed q (fun e he => (h.parts e he).plain)
    fun e he => quiet_plain (selects_conditions h e he).plain

theorem group_test_operand (t : GroupTest) : Operand t.items (.test (bare t.items)) := by
  have hq := quiet_plain (group_test_plain t)
  cases t with
  | count op p => exact operand_test rfl rfl hq rfl
  | periods period p => exact operand_test rfl rfl hq rfl
  | firstNotBefore s => exact operand_test rfl rfl hq rfl
  | firstNotAfter m => exact operand_test rfl rfl hq rfl

theorem tests_formula {α : Type} (ts : List α) (items : α → List Item)
    (h : ∀ t, Operand (items t) (.test (bare (items t)))) (hn : ts ≠ []) :
    formula (between (spaced "AND") (ts.map items)) =
      some (.all (ts.map fun t => .test (bare (items t)))) := by
  refine formula_and _ _ ?_ (by simpa using hn)
  rw [List.forall₂_map_left_iff, List.forall₂_map_right_iff, List.forall₂_same]
  exact fun t _ => h t

theorem row_conditions {ts : List RowTest} (h : ∀ t ∈ ts, t.Proper) (hn : ts ≠ []) :
    formula (between (spaced "AND") ((ts.map RowTest.render).map phrase)) =
      some (.all (ts.map fun t => .test (bare t.items))) := by
  rw [rows_phrases ts h]
  exact tests_formula ts RowTest.items row_operand hn

theorem performed_clauses {rows : List RowTest} {groups : List GroupTest}
    (h : (Fragment.performed rows groups).Proper) (hf : (Fragment.performed rows groups).Full) :
    Clauses.ofScope? (Fragment.performedSelect rows groups).scope = some
      ⟨[.name "distinct_id"], some [.name "events", .name "FINAL"],
        some (.all (rows.map fun t => .test (bare t.items))),
        some [.name "BY", .name "distinct_id"],
        some (.all (groups.map fun t => .test (bare t.items))), none, none, none⟩ := by
  have hw := row_conditions h.1 hf.1
  have hg : formula (between (spaced "AND") ((groups.map GroupTest.render).map phrase)) =
      some (.all (groups.map fun t => .test (bare t.items))) := by
    have hp : (groups.map GroupTest.render).map phrase = groups.map GroupTest.items := by
      rw [List.map_map]
      exact List.map_congr_left fun t ht => phrase_reads (group_test_reads t (h.2 t ht))
    rw [hp]
    exact tests_formula groups GroupTest.items group_test_operand hf.2
  have hs := fragment_selects h rfl
  rw [select_clauses_read (fragment_tidy h rfl) (selects_closed hs)]
  have hl : (Fragment.performedSelect rows groups).clauses = [("FROM", phrase eventsTable),
      ("WHERE", between (spaced "AND") ((rows.map RowTest.render).map phrase)),
      ("GROUP", byItems ++ phrase "distinct_id"),
      ("HAVING", between (spaced "AND") ((groups.map GroupTest.render).map phrase))] := by
    simp [Select.clauses, Fragment.performedSelect, Select.of, clauseIn, optionIn, hf.1, hf.2,
      between]
  have hh : signs? (Fragment.performedSelect rows groups).heading =
      some [.name "distinct_id"] := person_heading rfl rfl
  have hk := by_distinct_id_signs
  have he := events_signs
  simp [-List.map_map, Clauses.ofParts?, hl, hh, he, hk, hw, hg, List.lookup_cons]

theorem member_clauses {rows : List RowTest} {negated : Bool}
    (h : (Fragment.member rows negated).Proper) (hf : (Fragment.member rows negated).Full) :
    Clauses.ofScope? (Fragment.memberSelect rows).scope = some
      ⟨[.name "distinct_id"], some [.name "cohort_members"],
        some (.all (rows.map fun t => .test (bare t.items))), none, none, none, none, none⟩ := by
  have hw := row_conditions h hf
  have hs := fragment_selects h rfl
  rw [select_clauses_read (fragment_tidy h rfl) (selects_closed hs)]
  have hl : (Fragment.memberSelect rows).clauses = [("FROM", phrase membersTable),
      ("WHERE", between (spaced "AND") ((rows.map RowTest.render).map phrase))] := by
    have hn : rows ≠ [] := hf
    simp [Select.clauses, Fragment.memberSelect, Select.of, clauseIn, optionIn, hn]
  have hh : signs? (Fragment.memberSelect rows).heading = some [.name "distinct_id"] :=
    person_heading rfl rfl
  have he := members_signs
  simp [-List.map_map, Clauses.ofParts?, hl, hh, he, hw, List.lookup_cons]

theorem rows_traverse {ts : List RowTest} (h : ∀ t ∈ ts, t.Proper) :
    (Formula.all (ts.map fun t => .test (bare t.items))).traverse rowTestOf? =
      some (allOf ts) :=
  traverse_tests ts (fun t => bare t.items) fun t hm => row_test_of t (h t hm)

theorem groups_traverse {ts : List GroupTest} (h : ∀ t ∈ ts, t.Proper) :
    (Formula.all (ts.map fun t => .test (bare t.items))).traverse groupTestOf? =
      some (allOf ts) :=
  traverse_tests ts (fun t => bare t.items) fun t hm => group_test_of t (h t hm)

theorem performed_clauses_read (rows groups : Formula (List Item)) :
    Subquery.ofClauses? ⟨[.name "distinct_id"], some [.name "events", .name "FINAL"], some rows,
      some [.name "BY", .name "distinct_id"], some groups, none, none, none⟩ =
      (rows.traverse rowTestOf?).bind fun φ =>
        (groups.traverse groupTestOf?).bind fun ψ => some (.performed φ ψ) :=
  rfl

theorem member_clauses_read (rows : Formula (List Item)) :
    Subquery.ofClauses? ⟨[.name "distinct_id"], some [.name "cohort_members"], some rows, none,
      none, none, none, none⟩ = (rows.traverse rowTestOf?).map .members :=
  rfl

theorem performed_read {rows : List RowTest} {groups : List GroupTest}
    (h : (Fragment.performed rows groups).Proper) (hf : (Fragment.performed rows groups).Full) :
    Subquery.ofItems? (Fragment.performedSelect rows groups).items =
      some (.performed (allOf rows) (allOf groups)) := by
  have hs : (word "SELECT").isWord "SELECT" = true := rfl
  rw [Select.items, Subquery.ofItems?, if_pos hs, performed_clauses h hf, Option.bind_some,
    performed_clauses_read, rows_traverse h.1, groups_traverse h.2]
  rfl

theorem member_read {rows : List RowTest} {negated : Bool}
    (h : (Fragment.member rows negated).Proper) (hf : (Fragment.member rows negated).Full) :
    Subquery.ofItems? (Fragment.memberSelect rows).items = some (.members (allOf rows)) := by
  have hs : (word "SELECT").isWord "SELECT" = true := rfl
  rw [Select.items, Subquery.ofItems?, if_pos hs, member_clauses h hf, Option.bind_some,
    member_clauses_read, rows_traverse h, Option.map_some]

theorem among_read {q : Select} {s : Subquery} (h : Subquery.ofItems? q.items = some s) :
    Test.ofItems? (bare (among q)) = some (.among s) := by
  have hb : bare (among q) = [word "distinct_id", word "IN", .group q.items] := rfl
  rw [hb, word, word, Test.ofItems?, if_pos ⟨rfl, rfl⟩, h]
  rfl

theorem signs_front (cs : List Char) (is : List Item) : signs? (.token (.word cs) :: is) =
    (signs? is).map (.name (String.ofList cs) :: ·) := by
  have hs : signs? (.token (.word cs) :: is) =
      (Token.word cs :: (tokensOf is).filter fun t => !t.isBlank).mapM Token.sign? := rfl
  rw [hs, List.mapM_cons]
  unfold signs?
  cases ((tokensOf is).filter fun t => !t.isBlank).mapM Token.sign? <;> rfl

theorem two_words_unread (c r : String) (ss : List Sign) :
    rowTest? (.name c :: .name r :: ss) = none := by
  rw [compared_not ss (by simp)]
  simp [propertyTest?, called?, number?]

theorem row_test_read_alone (t : RowTest) (h : t.Proper) :
    Test.ofItems? (bare t.items) = some (.row t) := by
  have hr := row_test_of t h
  unfold Test.ofItems?
  split
  · next c r is he =>
    rw [he] at hr
    rw [rowTestOf?, signs_front, signs_front] at hr
    cases hg : signs? [.group is] with
    | none => simp [hg] at hr
    | some ss => simp [hg, two_words_unread] at hr
  · rw [hr]
    rfl

theorem fragment_typed {f : Fragment} (h : f.Proper) (hf : f.Full) :
    f.formula.traverse Test.ofItems? = some f.typed := by
  cases f with
  | property l t =>
    have hr := row_test_read_alone (.property l t) h
    have hi : RowTest.items (.property l t) = t.items l := rfl
    rw [hi] at hr
    rw [Fragment.formula, Formula.traverse, hr]
    rfl
  | performed rows groups =>
    rw [Fragment.formula, Formula.traverse, among_read (performed_read h hf)]
    rfl
  | member rows negated =>
    have ha := among_read (member_read h hf)
    cases negated with
    | false =>
      rw [Fragment.formula, Formula.traverse, ha]
      rfl
    | true =>
      rw [Fragment.formula, Formula.traverse, Formula.traverse, ha]
      rfl

/-- The text of a predicate says what its tree says. -/
theorem predicate_typed {p : Predicate} (h : p.Proper) (hf : ∀ f ∈ p.leaves, f.Full) :
    p.formula.traverse Test.ofItems? = some p.typed := by
  induction p using Tree.induct with
  | leaf f =>
    have hm : f ∈ Tree.leaves (.leaf f) := by simp [Tree.leaves, Tree.fold]
    exact fragment_typed (h f hm) (hf f hm)
  | group j ps ih =>
    have hp := proper_group h
    have hm : List.Forall₂ (fun (g : Reading) k => g.traverse Test.ofItems? = some k)
        (ps.map Predicate.formula) (ps.map Predicate.typed) := by
      rw [List.forall₂_map_left_iff, List.forall₂_map_right_iff, List.forall₂_same]
      intro p hm
      refine ih p hm (hp p hm) fun f hl => hf f ?_
      rw [Tree.leaves_group]
      exact List.mem_flatMap.mpr ⟨p, hm, hl⟩
    rw [Predicate.formula, Predicate.typed, Tree.fold_group, Tree.fold_group]
    have hj := Formula.traverse_join j Test.ofItems? hm
    cases j <;> exact hj

end Sql

end CohortQuery
