import CohortQuery.Proofs.Cohort.Lowered
import CohortQuery.Proofs.Sql.Query

/-!
# Statements of a cohort, read

The listing of a cohort and the three statements that store its members are read back from
their texts. What they ask of an event is the predicate, within the project.
-/

set_option autoImplicit false

namespace CohortQuery

open Sql

def restrictedTo (p : Predicate) : Formula Test :=
  .both (.test (.row .inProject)) p.typed

section

variable {q : Select} {p : Predicate} (hq : Open q) (hp : p.Proper)

theorem restricted_formula : formula (restrictionItems p) =
    some (.both (.test projectTest) p.formula) := by
  have hg : Operand [.group p.items] p.formula :=
    operand_group (formula_operand (predicate_operand p))
  have hs : restrictionItems p =
      between (spaced "AND") [RowTest.inProject.items, [.group p.items]] := rfl
  rw [hs]
  exact formula_and _ [.test projectTest, p.formula]
    (.cons (row_operand .inProject) (.cons hg .nil)) (by simp)

include hp

theorem restricted_typed (hf : ∀ f ∈ p.leaves, f.Full) :
    (Formula.both (.test projectTest) p.formula).traverse Test.ofItems? =
      some (restrictedTo p) := by
  have hr := row_test_read_alone .inProject trivial
  rw [project_bare] at hr
  rw [Formula.traverse, Formula.traverse, hr, predicate_typed hp hf]
  rfl

include hq

theorem restricted_closed : ∀ i ∈ (restricted q p).scope, i.opensScope = false :=
  scope_closed (restricted q p) (fun e he => (hq.parts e he).plain) (restricted_quiet hq hp)

end

theorem statement_read {text : String} (front : List Item) {scope : List Item} {t : Token}
    {fs : List Sign} {s : Sign} {c : Clauses} {st : Statement}
    (hr : Reads false text (front ++ .token t :: scope)) (ht : (Item.token t).opensScope = true)
    (hf : ∀ i ∈ front, i.opensScope = false) (hs : Signs front fs) (hk : t.sign? = some s)
    (hc : Clauses.ofScope? scope = some c) (ho : Statement.ofClauses? fs s c = some st) :
    Statement.read text = some st := by
  have hp : ∀ i ∈ front, (!i.opensScope) = true := fun i hi => by simp [hf i hi]
  have hd : (front ++ .token t :: scope).dropWhile (fun i => !i.opensScope) =
      .token t :: scope := by
    rw [List.dropWhile_append_of_pos hp, List.dropWhile_cons_of_neg (by simp [ht])]
  have hw : (front ++ .token t :: scope).takeWhile (fun i => !i.opensScope) = front := by
    rw [List.takeWhile_append_of_pos hp, List.takeWhile_cons_of_neg (by simp [ht])]
    simp
  have hfs : signs? front = some fs := hs
  rw [Statement.read, read_reads hr, Option.bind_some]
  simp [Statement.ofItems?, hd, hw, hfs, hk, hc, ho]

def resolvedSigns : List Sign :=
  callSigns "coalesce" (callSigns "dictGetOrNull" [.text "person_overrides_dict", .mark ',',
    .text "person_id", .mark ',', .mark '(', .name "project_id", .mark ',', .name "distinct_id",
    .mark ')'] ++ [.mark ',', .name "person_id"]) ++ [.name "AS", .name resolvedPersonName]

theorem resolved_signs : Signs (phrase resolvedPersonColumn) resolvedSigns := by
  have hd := signs_literal "person_overrides_dict".toList (by decide)
  have hp := signs_literal "person_id".toList (by decide)
  have hk := signs_group (signs_append (signs_append (signs_word "project_id") comma_signs)
    (signs_word "distinct_id"))
  have hl := signs_call "dictGetOrNull" (signs_append (signs_append (signs_append (signs_append
    hd comma_signs) hp) comma_signs) hk)
  have hc := signs_call "coalesce" (signs_append (signs_append hl comma_signs)
    (signs_word "person_id"))
  have ha : Signs (spaced "AS") [.name "AS"] := rfl
  rw [phrase_reads resolved_column_reads, resolvedColumnItems, List.append_assoc]
  exact signs_append hc (signs_append ha (signs_word resolvedPersonName))

theorem listing_head : signs? listingFrame.heading =
    some (.name "DISTINCT" :: .name "distinct_id" :: .mark ',' :: resolvedSigns) := by
  have hd : Signs [blank, word "DISTINCT", blank] [.name "DISTINCT"] := rfl
  exact signs_append hd (signs_append (signs_append distinct_id_signs comma_signs) resolved_signs)

theorem insert_heading : signs? insertFrame.heading = some [.name "DISTINCT",
    .name "project_id", .mark ',', .value cohortPlaceholder, .mark ',', .name "distinct_id"] := by
  have hd : Signs [blank, word "DISTINCT", blank] [.name "DISTINCT"] := rfl
  have hp : Signs (phrase "project_id") [.name "project_id"] := by
    rw [phrase_reads (reads_word "project_id" (by decide) (by decide))]
    exact signs_word "project_id"
  have hc : Signs (phrase cohortPlaceholder.render) [.value cohortPlaceholder] := by
    rw [phrase_reads (reads_placeholder cohortPlaceholder (by decide))]
    exact signs_hole cohortPlaceholder (by decide)
  exact signs_append hd (signs_append (signs_append hp comma_signs)
    (signs_append (signs_append hc comma_signs) distinct_id_signs))

theorem insert_head_signs : Signs insertHead [.name "INSERT", .name "INTO", .name "cohort_members",
    .mark '(', .name "project_id", .mark ',', .name "cohort_id", .mark ',', .name "distinct_id",
    .mark ')'] := rfl

theorem word_sign (w : String) : (Token.word w.toList).sign? = some (.name w) :=
  congrArg (fun w => some (Sign.name w)) String.ofList_toList

theorem listing_statement (ss : List Sign) (φ : Reading) (order : Option (List Sign)) :
    Statement.ofClauses? [] (.name "SELECT")
      ⟨.name "DISTINCT" :: .name "distinct_id" :: .mark ',' :: ss,
        some [.name "events", .name "FINAL"], some φ, none, none, order, none, none⟩ =
      (φ.traverse Test.ofItems?).map .listing :=
  rfl

theorem insert_statement (cohort : Placeholder) (φ : Reading) :
    Statement.ofClauses? [.name "INSERT", .name "INTO", .name "cohort_members", .mark '(',
        .name "project_id", .mark ',', .name "cohort_id", .mark ',', .name "distinct_id", .mark ')']
      (.name "SELECT")
      ⟨[.name "DISTINCT", .name "project_id", .mark ',', .value cohort, .mark ',',
        .name "distinct_id"], some [.name "events", .name "FINAL"], some φ, none, none, none, none,
        none⟩ =
      (φ.traverse Test.ofItems?).map (.insert cohort) :=
  rfl

theorem clear_statement (φ : Reading) :
    Statement.ofClauses? [] (.name "DELETE")
      ⟨[], some [.name "cohort_members"], some φ, none, none, none, none, none⟩ =
      (φ.traverse rowTestOf?).map .clear :=
  rfl

theorem count_statement (φ : Reading) :
    Statement.ofClauses? [] (.name "SELECT")
      ⟨[.name "count", .mark '(', .mark ')'], some [.name "cohort_members", .name "FINAL"], some φ,
        none, none, none, none, none⟩ =
      (φ.traverse rowTestOf?).map .count :=
  rfl

section

variable {p : Predicate} (hp : p.Proper)

include hp

theorem listing_clauses : Clauses.ofScope? (listingSelect p).scope = some
    ⟨.name "DISTINCT" :: .name "distinct_id" :: .mark ',' :: resolvedSigns,
      some [.name "events", .name "FINAL"], some (.both (.test projectTest) p.formula), none, none,
      some [.name "BY", .name "distinct_id"], none, none⟩ := by
  have hs : signs? (restricted listingFrame p).heading = _ := listing_head
  have he := events_signs
  have hk := by_distinct_id_signs
  have hl : (restricted listingFrame p).clauses = [("FROM", phrase eventsTable),
      ("WHERE", restrictionItems p), ("ORDER", byItems ++ phrase "distinct_id")] := by
    rw [Select.clauses, restricted_clause hp listing_open.conditions]
    rfl
  rw [listing_restricted, select_clauses_read
    (restricted_tidy hp listing_tidy listing_open.conditions) (restricted_closed listing_open hp)]
  simp [Clauses.ofParts?, hl, hs, he, hk, restricted_formula, List.lookup_cons]

theorem insert_clauses : Clauses.ofScope? (insertSelect p).scope = some
    ⟨[.name "DISTINCT", .name "project_id", .mark ',', .value cohortPlaceholder, .mark ',',
      .name "distinct_id"], some [.name "events", .name "FINAL"],
      some (.both (.test projectTest) p.formula), none, none, none, none, none⟩ := by
  have hs : signs? (restricted insertFrame p).heading = _ := insert_heading
  have he := events_signs
  have hl : (restricted insertFrame p).clauses = [("FROM", phrase eventsTable),
      ("WHERE", restrictionItems p)] := by
    rw [Select.clauses, restricted_clause hp insert_open.conditions]
    rfl
  rw [insert_restricted, select_clauses_read
    (restricted_tidy hp insert_tidy insert_open.conditions) (restricted_closed insert_open hp)]
  simp [Clauses.ofParts?, hl, hs, he, restricted_formula, List.lookup_cons]

theorem listing_read (hf : ∀ f ∈ p.leaves, f.Full) :
    Statement.read (listingSelect p).render = some (.listing (restrictedTo p)) := by
  have hc := listing_clauses hp
  have hr := restricted_text listing_open hp
  have ht := restricted_typed hp hf
  rw [← listing_restricted] at hr
  refine statement_read [] hr (by decide) (by simp) signs_nil (word_sign "SELECT") hc ?_
  rw [listing_statement, ht, Option.map_some]

theorem insert_read (hf : ∀ f ∈ p.leaves, f.Full) :
    Statement.read (Materialization.insertText p) =
      some (.insert cohortPlaceholder (restrictedTo p)) := by
  have hr := insert_text p hp
  have ht := restricted_typed hp hf
  refine statement_read insertHead hr (by decide) (by decide) insert_head_signs
    (word_sign "SELECT") (insert_clauses hp) ?_
  rw [insert_statement, ht, Option.map_some]

end

theorem stored_formula :
    formula (between (spaced "AND") (storedRows.map RowTest.items)) =
      some (.all (storedRows.map fun t => .test (bare t.items))) :=
  tests_formula storedRows RowTest.items row_operand (by simp [storedRows])

theorem clear_read :
    Statement.read Materialization.clearText = some (.clear (allOf storedRows)) := by
  have hw : clearScope = [] ++ clauseList [("FROM", [word membersTable]),
      ("WHERE", between (spaced "AND") (storedRows.map RowTest.items))] := by
    simp [clearScope, clearOpening, clauseList, spaced]
  have hs : signs? [word membersTable] = some [.name "cohort_members"] := rfl
  have hc : Clauses.ofScope? clearScope = some ⟨[], some [.name "cohort_members"],
      some (.all (storedRows.map fun t => .test (bare t.items))), none, none, none, none,
      none⟩ := by
    have ho : ∀ i ∈ clearScope, i.opensScope = false := fun i hi => (clear_inert i hi).1
    have hb : Clauseless (between (spaced "AND") (storedRows.map RowTest.items)) := by
      refine all_between (by decide) ?_
      intro is his
      obtain ⟨t, _, rfl⟩ := List.mem_map.mp his
      exact clauseless_row t
    have hc : ∀ c ∈ [("FROM", [word membersTable]),
        ("WHERE", between (spaced "AND") (storedRows.map RowTest.items))],
        c.1 ∈ clauseWords ∧ Clauseless c.2 := by
      simp only [List.forall_mem_cons]
      exact ⟨⟨by decide, by decide⟩, ⟨by decide, hb⟩, by simp⟩
    have hn : signs? [] = some [] := rfl
    have hf := stored_formula
    rw [hw] at ho ⊢
    rw [clauses_read (by decide) hc ho]
    simp [-List.map_map, Clauses.ofParts?, hn, hs, hf, List.lookup_cons]
  have ht := rows_traverse stored_proper
  refine statement_read [] clear_text (by decide) (by simp) signs_nil (word_sign "DELETE") hc ?_
  rw [clear_statement, ht, Option.map_some]

theorem count_read :
    Statement.read Materialization.countText = some (.count (allOf storedRows)) := by
  have hs : signs? (phrase (membersTable ++ " FINAL")) =
      some [.name "cohort_members", .name "FINAL"] := by
    rw [phrase_reads final_reads]
    rfl
  have hn : Reads true "count()" (call "count" []) :=
    reads_constant (by decide) fun _ _ _ => rfl
  have hi : countSelect.heading = [blank] ++ phrase "count()" := rfl
  have hh : signs? countSelect.heading = some [.name "count", .mark '(', .mark ')'] := by
    rw [hi, phrase_reads hn]
    exact signs_append (signs_blank rfl) (signs_call "count" signs_nil)
  have hl : countSelect.clauses = [("FROM", phrase (membersTable ++ " FINAL")),
      ("WHERE", between (spaced "AND") ((storedRows.map RowTest.render).map phrase))] := rfl
  have hw := row_conditions stored_proper (by simp [storedRows])
  have hc : ∀ e ∈ countSelect.surroundings, Clauseless (phrase e) := by
    simp only [count_surroundings, List.forall_mem_cons]
    refine ⟨?_, phrase_has (by decide), by simp⟩
    rw [phrase_reads final_reads]
    decide
  have ht : Tidy countSelect := by
    intro e he
    rcases List.mem_append.mp he with he | he
    · exact hc e he
    · obtain ⟨t, hm, rfl⟩ := List.mem_map.mp he
      rw [row_phrase t (stored_proper t hm)]
      exact clauseless_row t
  have hc : Clauses.ofScope? countSelect.scope = some ⟨[.name "count", .mark '(', .mark ')'],
      some [.name "cohort_members", .name "FINAL"],
      some (.all (storedRows.map fun t => .test (bare t.items))), none, none, none, none,
      none⟩ := by
    rw [select_clauses_read ht (selects_closed count_selects)]
    simp [-List.map_map, Clauses.ofParts?, hl, hh, hs, hw, List.lookup_cons]
  have htr := rows_traverse stored_proper
  rw [count_select]
  refine statement_read [] (selects_text count_selects) (by decide) (by simp) signs_nil
    (word_sign "SELECT") hc ?_
  rw [count_statement, htr, Option.map_some]

theorem leaf_full {allowed : AllowList} {stop : Moment} {n : Nat} {l : Leaf} {f : Fragment}
    {vs : Literals} (h : LeafLowers allowed stop n l f vs) : f.Full := by
  cases h with
  | event | regular => exact ⟨by simp [windowRows, scopeRows], by simp⟩
  | person => trivial
  | firstTime => exact ⟨by simp [scopeRows], by simp⟩
  | member => exact List.cons_ne_nil _ _

theorem node_full {allowed : AllowList} {stop : Moment} {room n : Nat} {m : Condition}
    {p : Predicate} {vs : Literals} (h : NodeLowers allowed stop room n m p vs) :
    ∀ f ∈ p.leaves, f.Full :=
  Tree.rel_right (node_rel h) fun _ _ ⟨_, _, hl⟩ => leaf_full hl

end CohortQuery
