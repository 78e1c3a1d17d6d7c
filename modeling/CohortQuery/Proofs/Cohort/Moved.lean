import CohortQuery.Proofs.Cohort.Operands
import CohortQuery.Proofs.Sql.Inert
import Mathlib.Algebra.Order.Ring.Nat

/-!
# Lowering once more

A tree that is lowered behind other values, or with another end of its windows, has a text that
differs only in the placeholders of its values and in the places of that end. Every leaf with a
window has two of these.
-/

set_option autoImplicit false

namespace CohortQuery

open Sql (Calm Edit Fragment GroupTest Inert Lookup Moment Predicate PropertyTest RowTest Select
  inert_append keeps_all turns_all_append turns_append turns_before turns_behind turns_empty
  turns_join turns_number turns_select)

def literalStems : List String :=
  ["coh_event", "coh_window", "coh_prop", "coh_count", "coh_min", "coh_cohort"]

/-- The change moves values `k` places on and replaces the end of a window at `c` places. -/
structure Moves (e : Edit) (k c : Nat) (stop other : Moment) : Prop where
  words : ∀ s, Inert s → e.Keeps s
  project : e.Keeps Bindings.project.render
  place : ∀ stem ∈ literalStems, ∀ n type, type ≠ .time →
    e.Turns 0 (place stem n type).render (place stem (n + k) type).render
  stop : e.Turns c stop.render other.render

section

variable {e : Edit} {k c : Nat} {stop other : Moment} (hm : Moves e k c stop other)

include hm

theorem test_moves {property : String} {operand : Option Json} {n : Nat}
    {op : PropertyOperator} {t : PropertyTest} {vs : Literals}
    (h : TestLowers property operand n op t vs) :
    ∃ u, TestLowers property operand (n + k) op u vs ∧
      ∀ l : Lookup, e.Turns 0 (t.render l) (u.render l) := by
  have htext := hm.place "coh_prop" (by decide) n .text (by decide)
  have hreal := hm.place "coh_prop" (by decide) n .real (by decide)
  have heq (negated : Bool) : e.Keeps (Sql.equality negated) := by
    cases negated
    · exact hm.words " = " (.known (by decide))
    · exact hm.words " != " (.known (by decide))
  cases h with
  | text negated h =>
    refine ⟨_, .text negated h, fun l => ?_⟩
    exact turns_append (turns_append (hm.words _ (Sql.text_inert l)) (heq negated)) htext
  | flag negated h =>
    refine ⟨_, .flag negated h, fun l => ?_⟩
    exact turns_append (turns_append (hm.words _ (Sql.raw_inert l)) (heq negated)) htext
  | number negated h =>
    refine ⟨_, .number negated h, fun l => ?_⟩
    have hl := hm.words _ (Sql.number_inert l)
    cases negated
    · exact turns_append (turns_append hl (hm.words " = " (.known (by decide)))) hreal
    · exact turns_append (turns_append (turns_append (turns_append
        (hm.words "ifNull(" (.known (by decide))) hl) (hm.words " != " (.known (by decide)))) hreal)
        (hm.words ", 1)" (.known (by decide)))
  | ordered order h =>
    refine ⟨_, .ordered order h, fun l => ?_⟩
    have ho : e.Keeps order.symbol := hm.words _ (by cases order <;> exact .known (by decide))
    exact turns_append (turns_append (turns_append (turns_append (hm.words _ (Sql.number_inert l))
      (hm.words " " (.known (by decide)))) ho) (hm.words " " (.known (by decide)))) hreal
  | like negated h hs =>
    refine ⟨_, .like negated h hs, fun l => ?_⟩
    have ho : e.Keeps (if negated then " NOT LIKE " else " LIKE ") :=
      hm.words _ (by cases negated <;> exact .known (by decide))
    exact turns_append (turns_append (hm.words _ (Sql.text_inert l)) ho) htext
  | isSet negated =>
    refine ⟨_, .isSet negated, fun l => ?_⟩
    have ho : e.Keeps (if negated then "NULL" else "NOT NULL") :=
      hm.words _ (by cases negated <;> exact .known (by decide))
    exact turns_append (turns_append (turns_append (hm.words "nullIf(" (.known (by decide)))
      (hm.words _ (Sql.raw_inert l))) (hm.words ", '') IS " (.known (by decide)))) ho

theorem filters_move {allowed : AllowList} {n : Nat} {fs : List EventFilter}
    {ts : List RowTest} {vs : Literals} (h : FiltersLower allowed n fs ts vs) :
    ∃ us, FiltersLower allowed (n + k) fs us vs ∧
      e.TurnsAll 0 (ts.map RowTest.render) (us.map RowTest.render) := by
  induction h with
  | nil => exact ⟨[], .nil _, .nil⟩
  | cons hk ht _ ih =>
    obtain ⟨t, ht, hr⟩ := test_moves hm ht
    obtain ⟨us, hf, hu⟩ := ih
    rw [Nat.add_right_comm] at hf
    exact ⟨_, .cons hk ht hf, .cons (hr _) hu⟩

theorem column_moves {stem : String} (hs : stem ∈ literalStems) (column : Sql.Column) (n : Nat) :
    e.Turns 0 (RowTest.equal column (place stem n .text)).render
      (RowTest.equal column (place stem (n + k) .text)).render := by
  have hc : e.Keeps column.render := hm.words _ (by cases column <;> exact .known (by decide))
  exact turns_append (turns_append hc (hm.words " = " (.known (by decide))))
    (hm.place stem hs n .text (by decide))

theorem project_moves : e.Keeps RowTest.inProject.render :=
  turns_append (hm.words "project_id = " (.known (by decide))) hm.project

theorem scope_moves (n : Nat) : e.TurnsAll 0 ((scopeRows n).map RowTest.render)
    ((scopeRows (n + k)).map RowTest.render) :=
  .cons (project_moves hm) (.cons (column_moves hm (by decide) .eventName n) .nil)

theorem start_moves (n : Nat) :
    e.Turns c (windowStart stop n).render (windowStart other (n + k)).render := by
  have hp := hm.place "coh_window" (by decide) n .word (by decide)
  have hd := turns_append (turns_append (hm.words " - INTERVAL " (.known (by decide))) hp)
    (hm.words " DAY" (.known (by decide)))
  exact turns_append hm.stop hd

theorem window_moves (n : Nat) : e.TurnsAll (c * 2) ((windowRows stop n).map RowTest.render)
    ((windowRows other (n + k)).map RowTest.render) := by
  have hs := start_moves hm (n + 1)
  rw [Nat.add_right_comm] at hs
  have hb := turns_behind (hm.words "timestamp >= " (.known (by decide))) hs
  have he := turns_behind (hm.words "timestamp <= " (.known (by decide))) hm.stop
  have h := turns_all_append (scope_moves hm n) (.cons hb (.cons he .nil))
  have hc : 0 + (c + (c + 0)) = c * 2 := by omega
  rwa [hc] at h

theorem select_words : e.KeepsWords := by
  have known {cs : List Char} (h : '\x7b' ∉ cs ∧ Calm cs) : e.Keeps (String.ofList cs) :=
    hm.words _ (.known h)
  constructor <;> simp only [List.forall_mem_cons]
  · exact ⟨known (by decide), known (by decide), known (by decide), known (by decide),
      known (by decide), known (by decide), known (by decide), known (by decide),
      known (by decide), known (by decide), by simp⟩
  · exact ⟨known (by decide), known (by decide), by simp⟩

theorem among_moves {n : Nat} {q r : Select} (h : e.Turns n q.render r.render) :
    e.Turns n (Fragment.isAmong q) (Fragment.isAmong r) :=
  turns_before (turns_behind (hm.words "distinct_id IN (" (.known (by decide))) h)
    (hm.words ")" (.known (by decide)))

theorem performed_moves {m n : Nat} {rows others : List RowTest} {groups tests : List GroupTest}
    (hr : e.TurnsAll m (rows.map RowTest.render) (others.map RowTest.render))
    (hg : e.TurnsAll n (groups.map GroupTest.render) (tests.map GroupTest.render)) :
    e.Turns (m + n) (Fragment.performed rows groups).render
      (Fragment.performed others tests).render := by
  have hf : ∀ s ∈ [Sql.eventsTable, "distinct_id"], Inert s := by
    simp only [List.forall_mem_cons]
    exact ⟨.known (by decide), .known (by decide), by simp⟩
  refine among_moves hm (turns_select (select_words hm) (Fragment.performedSelect [] []) ?_ hr hg)
  intro s hs
  have hl : (Fragment.performedSelect [] []).surroundings =
      [Sql.eventsTable, "distinct_id", "distinct_id"] := rfl
  exact hm.words s (hf s (by simpa [hl] using hs))

theorem member_moves {rows others : List RowTest} (negated : Bool)
    (hr : e.TurnsAll 0 (rows.map RowTest.render) (others.map RowTest.render)) :
    e.Turns 0 (Fragment.member rows negated).render (Fragment.member others negated).render := by
  have hf : ∀ s ∈ [Sql.membersTable, "distinct_id"], Inert s := by
    simp only [List.forall_mem_cons]
    exact ⟨.known (by decide), .known (by decide), by simp⟩
  have ha := among_moves hm (turns_select (select_words hm) (Fragment.memberSelect []) (by
    intro s hs
    exact hm.words s (hf s hs)) hr .nil)
  cases negated
  · exact ha
  · exact turns_before (turns_behind (hm.words "NOT (" (.known (by decide))) ha)
      (hm.words ")" (.known (by decide)))

theorem counted_moves (stem : String) (test : Placeholder → GroupTest) (n : Nat) {s : String}
    (hs : stem ∈ literalStems) (hi : Inert s) (ht : ∀ p, (test p).render = s ++ p.render) :
    e.TurnsAll 0 ([test (place stem n .word)].map GroupTest.render)
      ([test (place stem (n + k) .word)].map GroupTest.render) := by
  have hp := turns_behind (hm.words s hi) (hm.place stem hs n .word (by decide))
  rw [← ht, ← ht] at hp
  exact .cons hp .nil

omit hm in
def Leaf.stops (l : Leaf) : Nat :=
  if l.isTimed then 2 else 0

theorem leaf_moves {allowed : AllowList} {n : Nat} {l : Leaf} {f : Fragment} {vs : Literals}
    (h : LeafLowers allowed stop n l f vs) :
    ∃ g, LeafLowers allowed other (n + k) l g vs ∧ e.Turns (c * l.stops) f.render g.render := by
  have rows {fs : List EventFilter} {ts : List RowTest} {vs : Literals}
      (hf : FiltersLower allowed (n + 2) fs ts vs) : ∃ us,
        FiltersLower allowed (n + k + 2) fs us vs ∧
        e.TurnsAll (c * 2 + 0) ((windowRows stop n ++ ts).map RowTest.render)
          ((windowRows other (n + k) ++ us).map RowTest.render) := by
    obtain ⟨us, hu, ht⟩ := filters_move hm hf
    rw [Nat.add_right_comm] at hu
    refine ⟨us, hu, ?_⟩
    rw [List.map_append, List.map_append]
    exact turns_all_append (window_moves hm n) ht
  have hn (vs : Literals) : n + 2 + vs.length + k = n + k + 2 + vs.length := by omega
  cases h with
  | @event d ts vs hc hw he hf =>
    obtain ⟨us, hu, hr⟩ := rows hf
    have ho : Inert d.operator.symbol := by cases d.operator <;> exact .known (by decide)
    have hi : Inert ("count() " ++ d.operator.symbol ++ " ") :=
      inert_append (inert_append (.known (by decide)) ho) (.known (by decide))
    have hg := counted_moves hm "coh_count" (.count d.operator) (n + 2 + vs.length) (by decide) hi
      fun _ => rfl
    rw [hn] at hg
    have hp := performed_moves hm hr hg
    exact ⟨_, .event hc hw he hu, hp⟩
  | @regular d ts vs hz hw he hf =>
    obtain ⟨us, hu, hr⟩ := rows hf
    have hs : Inert d.period.start := by cases d.period <;> exact .known (by decide)
    have hi : Inert ("uniqExact(" ++ d.period.start ++ ") >= ") :=
      inert_append (inert_append (.known (by decide)) hs) (.known (by decide))
    have hg := counted_moves hm "coh_min" (.periods d.period) (n + 2 + vs.length) (by decide) hi
      fun _ => rfl
    rw [hn] at hg
    have hp := performed_moves hm hr hg
    exact ⟨_, .regular hz hw he hu, hp⟩
  | person hk ht =>
    obtain ⟨u, ht, hr⟩ := test_moves hm ht
    exact ⟨_, .person hk ht, hr _⟩
  | firstTime hw he =>
    have hs := start_moves hm (n + 1)
    rw [Nat.add_right_comm] at hs
    have hg : e.TurnsAll (c * 2)
        ([.firstNotBefore (windowStart stop (n + 1)), .firstNotAfter stop].map GroupTest.render)
        ([.firstNotBefore (windowStart other (n + k + 1)), .firstNotAfter other].map
          GroupTest.render) := by
      rw [Nat.mul_two]
      exact .cons (turns_behind (hm.words "min(timestamp) >= " (.known (by decide))) hs)
        (.cons (turns_behind (hm.words "min(timestamp) <= " (.known (by decide))) hm.stop) .nil)
    have hp := turns_number (performed_moves hm (scope_moves hm n) hg) (Nat.zero_add _)
    exact ⟨_, .firstTime hw he, hp⟩
  | member hb =>
    have hr : e.TurnsAll 0
        ([.inProject, .equal .cohortId (place "coh_cohort" n .text)].map RowTest.render)
        ([.inProject, .equal .cohortId (place "coh_cohort" (n + k) .text)].map RowTest.render) :=
      .cons (project_moves hm) (.cons (column_moves hm (by decide) .cohortId n) .nil)
    exact ⟨_, .member hb, member_moves hm _ hr⟩

omit hm in
def treeStops (m : Condition) : Nat :=
  (m.leaves.map Leaf.stops).sum

theorem group_moves {n : Nat} {ss ts : List String} (j : Junction) (h : e.TurnsAll n ss ts) :
    e.Turns n (Sql.groupText j ss) (Sql.groupText j ts) := by
  have hj : e.Keeps (Sql.junctionText j) := hm.words _ (by cases j <;> exact .known (by decide))
  have hjoin := turns_join hj h
  cases h with
  | nil => exact hm.words _ (by cases j <;> exact .known (by decide))
  | cons h hr =>
    cases hr with
    | nil => exact h
    | cons =>
      exact turns_before (turns_behind (hm.words "(" (.known (by decide))) hjoin)
        (hm.words ")" (.known (by decide)))

end

section

variable {e : Edit} {k c : Nat} {stop other : Moment}

mutual

theorem node_moves (hm : Moves e k c stop other) {allowed : AllowList} {room n : Nat}
    {m : Condition} {p : Predicate} {vs : Literals} (h : NodeLowers allowed stop room n m p vs) :
    ∃ q, NodeLowers allowed other room (n + k) m q vs ∧
      e.Turns (c * treeStops m) (Predicate.render p) (Predicate.render q) := by
  cases h with
  | leaf h =>
    obtain ⟨g, hg, ht⟩ := leaf_moves hm h
    refine ⟨.leaf g, .leaf hg, ?_⟩
    simpa [Predicate.render, treeStops, Tree.leaves, Tree.fold] using ht
  | group j h =>
    obtain ⟨qs, hq, ht⟩ := members_move hm h
    refine ⟨.group j qs, .group j hq, ?_⟩
    rw [Predicate.render, Predicate.render, treeStops, Tree.leaves_group]
    exact group_moves hm j ht

theorem members_move (hm : Moves e k c stop other) {allowed : AllowList} {room n : Nat}
    {ms : List Condition} {ps : List Predicate} {vs : Literals}
    (h : MembersLower allowed stop room n ms ps vs) :
    ∃ qs, MembersLower allowed other room (n + k) ms qs vs ∧
      e.TurnsAll (c * ((ms.flatMap Tree.leaves).map Leaf.stops).sum)
        (Predicate.renderAll ps) (Predicate.renderAll qs) := by
  cases h with
  | nil => exact ⟨[], .nil _ _, .nil⟩
  | cons h hr =>
    obtain ⟨q, hq, ht⟩ := node_moves hm h
    obtain ⟨qs, hqs, hts⟩ := members_move hm hr
    rw [Nat.add_right_comm] at hqs
    refine ⟨q :: qs, .cons hq hqs, ?_⟩
    rw [List.flatMap_cons, List.map_append, List.sum_append, Nat.mul_add]
    exact .cons ht hts

end

end

end CohortQuery
