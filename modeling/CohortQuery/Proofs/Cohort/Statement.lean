import CohortQuery.Cohort.Compile
import CohortQuery.Proofs.Sql.Predicate

/-!
# Statements of a cohort

The listing of a cohort and the statement that stores its members: what their scopes are
and what their conditions say.
-/

set_option autoImplicit false

namespace CohortQuery

open Sql

theorem restricted_conditions (q : Select) (p : Predicate) : (restricted q p).conditions =
    q.conditions ++ [RowTest.inProject.render, "(" ++ Predicate.render p ++ ")"] := by
  simp [restricted, Select.filter]

structure Open (q : Select) : Prop where
  parts : ∀ e ∈ q.surroundings, Part e
  conditions : q.conditions = []

section

variable {q : Select} {p : Predicate} (hq : Open q) (hp : p.Proper)

theorem parenthesized_phrase (hp : p.Proper) :
    phrase ("(" ++ Predicate.render p ++ ")") = [.group p.items] :=
  phrase_reads (reads_group (predicate_reads p hp))

include hq hp

theorem restricted_text : Reads false (restricted q p).render (restricted q p).items := by
  refine select_reads _ ?_
  intro e he
  rcases List.mem_append.mp he with he | he
  · exact (hq.parts e he).legible
  · rw [restricted_conditions, hq.conditions] at he
    simp only [List.nil_append, List.mem_cons, List.not_mem_nil, or_false] at he
    rcases he with rfl | rfl
    · exact (row_part .inProject trivial).legible
    · exact legible_reads (reads_group (predicate_reads p hp))

theorem restricted_quiet : ∀ e ∈ (restricted q p).conditions, Quiet (phrase e) := by
  intro e he
  rw [restricted_conditions, hq.conditions] at he
  simp only [List.nil_append, List.mem_cons, List.not_mem_nil, or_false] at he
  rcases he with rfl | rfl
  · exact quiet_plain (row_part .inProject trivial).plain
  · rw [parenthesized_phrase hp]
    intro i hi
    obtain rfl := List.mem_singleton.mp hi
    rfl

theorem restricted_scopes : scopesOf (restricted q p).items =
    (restricted q p).scope :: p.leaves.flatMap fun f => f.select?.toList.map Select.scope := by
  have hs := select_scopes (restricted q p) (fun e he => (hq.parts e he).plain)
    (restricted_quiet hq hp)
  have hi : scopesOf p.items = p.items.flatMap Item.scopes :=
    scopes_beside _ fun i hi => (reserved_not (predicate_quiet p i hi)).1
  have hr : (phrase RowTest.inProject.render).flatMap Item.scopes = [] :=
    scopes_inert _ (inert_plain (row_part .inProject trivial).plain)
  rw [hs, restricted_conditions, hq.conditions]
  simp only [List.nil_append, List.flatMap_cons, List.flatMap_nil, List.append_nil, hr,
    parenthesized_phrase hp, Item.scopes, hi, predicate_scopes p hp]

theorem restricted_where : ∃ is, whereOf (restricted q p).scope = some is ∧
    formula is = some (.both (.test projectTest) p.formula) := by
  have hr : Operand (phrase RowTest.inProject.render) (.test projectTest) := by
    rw [row_phrase .inProject trivial, ← project_bare]
    exact row_operand .inProject
  have hg : Operand (phrase ("(" ++ Predicate.render p ++ ")")) p.formula := by
    rw [parenthesized_phrase hp]
    exact operand_group (formula_operand (predicate_operand p))
  refine select_formula (restricted q p) (fun e he => (hq.parts e he).plain)
    (restricted_quiet hq hp) [.test projectTest, p.formula] ?_ ?_
  · rw [restricted_conditions]
    simp
  · rw [restricted_conditions, hq.conditions]
    exact .cons hr (.cons hg .nil)

theorem restricted_restriction :
    restriction (restricted q p).render = some (.both (.test projectTest) p.formula) := by
  obtain ⟨is, hw, hf⟩ := restricted_where hq hp
  have hr := read_reads (restricted_text hq hp)
  simp [restriction, hr, restricted_scopes hq hp, hw, hf]

end

/-- The expression for the person to whom a row belongs now. -/
def resolvedItems : List Item :=
  call "coalesce" (call "dictGetOrNull" ([literal "person_overrides_dict".toList] ++ comma ++
    [literal "person_id".toList] ++ comma ++
    [.group ([word "project_id"] ++ comma ++ [word "distinct_id"])]) ++ comma ++
    [word "person_id"])

theorem resolved_reads : Reads true resolvedPerson resolvedItems :=
  reads_pieces (by decide) fun _ _ _ => rfl

theorem resolved_plain : Plain resolvedItems := by
  decide

def resolvedColumnItems : List Item :=
  resolvedItems ++ spaced "AS" ++ [word resolvedPersonName]

theorem resolved_column_reads : Reads false resolvedPersonColumn resolvedColumnItems := by
  have ha : Reads true " AS " (spaced "AS") := reads_constant (by decide) fun _ _ _ => rfl
  have hn := reads_word resolvedPersonName (by decide) (by decide)
  exact reads_append (reads_append resolved_reads ha (.inl rfl)) hn (.inl rfl)

theorem resolved_person_part : Part resolvedPersonColumn :=
  part_reads resolved_column_reads
    (plain_append (plain_append resolved_plain (by decide)) (by decide))

def listingFrame : Select :=
  (((Select.of eventsTable).distinct.column "distinct_id").column
    resolvedPersonColumn).orderBy "distinct_id"

def insertFrame : Select :=
  (((Select.of eventsTable).distinct.column "project_id").column
    cohortPlaceholder.render).column "distinct_id"

theorem listing_restricted (p : Predicate) : listingSelect p = restricted listingFrame p := rfl

theorem insert_restricted (p : Predicate) : insertSelect p = restricted insertFrame p := rfl

theorem listing_open : Open listingFrame := by
  refine ⟨?_, rfl⟩
  intro e he
  have hs : listingFrame.surroundings =
      [eventsTable, "distinct_id", resolvedPersonColumn, "distinct_id"] := rfl
  simp only [hs, List.mem_cons, List.not_mem_nil, or_false] at he
  rcases he with rfl | rfl | rfl | rfl
  · exact events_part
  · exact distinct_id_part
  · exact resolved_person_part
  · exact distinct_id_part

theorem listing_phrases : listingFrame.surroundings.map phrase =
    [[word "events", blank, word "FINAL"], [word "distinct_id"], resolvedColumnItems,
      [word "distinct_id"]] := by
  have hs : listingFrame.surroundings =
      [eventsTable, "distinct_id", resolvedPersonColumn, "distinct_id"] := rfl
  simp only [hs, List.map_cons, List.map_nil, events_phrase, distinct_id_phrase,
    phrase_reads resolved_column_reads]

theorem insert_open : Open insertFrame := by
  refine ⟨?_, rfl⟩
  intro e he
  have hs : insertFrame.surroundings =
      [eventsTable, "project_id", cohortPlaceholder.render, "distinct_id"] := rfl
  have hc := reads_placeholder cohortPlaceholder (by decide)
  simp only [hs, List.mem_cons, List.not_mem_nil, or_false] at he
  rcases he with rfl | rfl | rfl | rfl
  · exact events_part
  · exact part_constant (by decide)
  · exact part_reads hc (plain_hole cohortPlaceholder)
  · exact distinct_id_part

def insertColumns : List Item :=
  [word "project_id", mark ',', blank, word "cohort_id", mark ',', blank] ++ [word "distinct_id"]

def insertHead : List Item :=
  [word "INSERT", blank, word "INTO", blank, word membersTable, blank] ++
    [.group insertColumns] ++ [blank]

theorem insert_head_reads :
    Reads true "INSERT INTO cohort_members (project_id, cohort_id, distinct_id) " insertHead := by
  have hi : Reads true "INSERT INTO cohort_members "
      [word "INSERT", blank, word "INTO", blank, word membersTable, blank] :=
    reads_constant (by decide) fun _ _ _ => rfl
  have hp : Reads true "project_id, cohort_id, "
      [word "project_id", mark ',', blank, word "cohort_id", mark ',', blank] :=
    reads_constant (by decide) fun _ _ _ => rfl
  have hc : Reads false ("project_id, cohort_id, " ++ "distinct_id") insertColumns :=
    reads_append hp (reads_word "distinct_id" (by decide) (by decide)) (.inl rfl)
  have hb : Reads true " " [blank] := reads_constant (by decide) fun _ _ _ => rfl
  exact reads_append (reads_append hi (reads_group hc) (.inl rfl)) hb (.inl rfl)

theorem insert_text (p : Predicate) (hp : p.Proper) :
    Reads false (Materialization.insertText p) (insertHead ++ (insertSelect p).items) := by
  have hs := restricted_text insert_open hp
  exact reads_append insert_head_reads hs (.inl rfl)

theorem insert_scopes (p : Predicate) :
    scopesOf (insertHead ++ (insertSelect p).items) = scopesOf (insertSelect p).items :=
  scopes_behind insertHead _ (by decide)

def storedRows : List RowTest :=
  [.inProject, .equal .cohortId cohortPlaceholder]

theorem stored_proper : ∀ t ∈ storedRows, t.Proper := by
  intro t ht
  simp only [storedRows, List.mem_cons, List.not_mem_nil, or_false] at ht
  rcases ht with rfl | rfl
  · trivial
  · exact (by decide : cohortPlaceholder.Proper)

def countSelect : Select :=
  { (Select.of (membersTable ++ " FINAL")).column "count()" with
    conditions := storedRows.map RowTest.render }

theorem count_select : Materialization.countText = countSelect.render := by
  decide +kernel

theorem final_reads :
    Reads false (membersTable ++ " FINAL") [word membersTable, blank, word "FINAL"] := by
  have hb : Reads true " " [blank] := reads_constant (by decide) fun _ _ _ => rfl
  have hf := reads_append hb (reads_word "FINAL" (by decide) (by decide)) (.inl rfl)
  exact reads_append members_reads hf (.inr rfl)

theorem count_surroundings :
    countSelect.surroundings = [membersTable ++ " FINAL", "count()"] :=
  rfl

theorem count_selects : Selects countSelect storedRows := by
  refine ⟨?_, rfl, stored_proper⟩
  intro e he
  simp only [count_surroundings, List.mem_cons, List.not_mem_nil, or_false] at he
  rcases he with rfl | rfl
  · exact part_reads final_reads (by decide)
  · exact part_constant (by decide)

def clearOpening : List Item :=
  spaced "FROM" ++ [word membersTable, blank]

def clearScope : List Item :=
  clearOpening ++ word "WHERE" :: blank :: between (spaced "AND") (storedRows.map RowTest.items)

theorem clear_text : Reads false Materialization.clearText (word "DELETE" :: clearScope) := by
  have hh : Reads true "DELETE FROM cohort_members WHERE "
      (word "DELETE" :: (clearOpening ++ [word "WHERE", blank])) :=
    reads_constant (by decide) fun _ _ _ => rfl
  have hj := reads_join reads_and rfl (storedRows.map RowTest.render)
    (fun e he => (rows_parts storedRows stored_proper e he).legible)
  rw [rows_phrases storedRows stored_proper] at hj
  have hr := reads_append hh hj (.inl rfl)
  have hs : Materialization.clearText =
      "DELETE FROM cohort_members WHERE " ++ Text.join " AND " (storedRows.map RowTest.render) := by
    decide +kernel
  rw [hs]
  simpa [clearScope] using hr

theorem stored_inert : ∀ i ∈ between (spaced "AND") (storedRows.map RowTest.items),
    i.Inert ∧ i.endsWhere = false := by
  have hs : ∀ i ∈ spaced "AND", i.Inert ∧ i.endsWhere = false := by decide
  intro i hi
  rcases mem_between hi with hi | ⟨is, his, hi⟩
  · exact hs i hi
  · obtain ⟨t, _, rfl⟩ := List.mem_map.mp his
    have hp := row_plain t
    exact ⟨inert_plain hp i hi, (reserved_not (hp i hi).1).2.1⟩

theorem clear_inert : ∀ i ∈ clearScope, i.Inert := by
  have ho : ∀ i ∈ clearOpening ++ [word "WHERE", blank], i.Inert := by decide
  intro i hi
  rcases List.mem_append.mp (show i ∈ (clearOpening ++ [word "WHERE", blank]) ++ _ from hi)
    with hi | hi
  · exact ho i hi
  · exact (stored_inert i hi).1

theorem clear_scopes : scopesOf (word "DELETE" :: clearScope) = [clearScope] := by
  have ht : clearScope.takeWhile (fun j => !j.opensScope) = clearScope := by
    rw [List.takeWhile_eq_self_iff]
    intro i hi
    rw [(clear_inert i hi).1]
    rfl
  rw [scopesOf, ht, scopes_beside clearScope fun i hi => (clear_inert i hi).1,
    scopes_inert clearScope clear_inert]
  rfl

theorem clear_where : ∃ is, whereOf clearScope = some is ∧
    formula is = some (.all (storedRows.map fun t => .test (bare t.items))) := by
  have ho : ∀ i ∈ clearOpening, i.isWord "WHERE" = false := by decide
  have hi : ∀ i ∈ blank :: between (spaced "AND") (storedRows.map RowTest.items),
      i.endsWhere = false := by
    intro i hi
    rcases List.mem_cons.mp hi with rfl | hi
    · rfl
    · exact (stored_inert i hi).2
  have hw := where_append clearOpening _ [] ho hi (by simp)
  have hf : List.Forall₂ Operand (storedRows.map RowTest.items)
      (storedRows.map fun t => .test (bare t.items)) := by
    rw [List.forall₂_map_left_iff, List.forall₂_map_right_iff, List.forall₂_same]
    exact fun t _ => row_operand t
  have hb := formula_blanks (between (spaced "AND") (storedRows.map RowTest.items)) [] (by simp)
  rw [List.append_nil] at hw hb
  exact ⟨_, hw, hb.trans (formula_and _ _ hf (by simp [storedRows]))⟩

end CohortQuery
