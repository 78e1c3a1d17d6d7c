import CohortQuery.Proofs.Cohort.Tree
import CohortQuery.Proofs.Sql.Row

/-!
# Conditions on a person as items

A leaf of a predicate is one test, or the negation of one, and keeps its statement in
parentheses. A group is the conjunction or disjunction of its members: the parentheses
around several members are what keeps it so inside of another group.
-/

set_option autoImplicit false

namespace CohortQuery.Sql

def among (q : Select) : List Item :=
  [word "distinct_id", blank, word "IN", blank, .group q.items]

namespace Fragment

def Proper : Fragment → Prop
  | property _ t => t.Proper
  | performed rows groups => (∀ t ∈ rows, t.Proper) ∧ ∀ t ∈ groups, t.Proper
  | member rows _ => ∀ t ∈ rows, t.Proper

def items : Fragment → List Item
  | property l t => t.items l
  | performed rows groups => among (performedSelect rows groups)
  | member rows false => among (memberSelect rows)
  | member rows true => [word "NOT", blank, .group (among (memberSelect rows))]

def formula : Fragment → Reading
  | property l t => .test (bare (t.items l))
  | performed rows groups => .test (bare (among (performedSelect rows groups)))
  | member rows false => .test (bare (among (memberSelect rows)))
  | member rows true => .not (.test (bare (among (memberSelect rows))))

end Fragment

theorem among_reads {q : Select} (h : Reads false q.render q.items) :
    Reads true (Fragment.isAmong q) (among q) := by
  have hd : Reads true "distinct_id IN " [word "distinct_id", blank, word "IN", blank] :=
    reads_constant (by decide) fun _ _ _ => rfl
  have hs : Fragment.isAmong q = "distinct_id IN " ++ ("(" ++ q.render ++ ")") := by
    have front : "distinct_id IN (" = "distinct_id IN " ++ "(" := joined_chars rfl
    unfold Fragment.isAmong
    rw [front]
    simp only [String.append_assoc]
  rw [hs]
  exact reads_append hd (reads_group h) (.inl rfl)

theorem among_quiet (q : Select) : Quiet (among q) := by
  have hd : Quiet [word "distinct_id", blank, word "IN", blank] := quiet_plain (by decide)
  intro i hi
  rcases List.mem_append.mp (show i ∈ [word "distinct_id", blank, word "IN", blank] ++ [_] from hi)
    with hi | hi
  · exact hd i hi
  · obtain rfl : i = .group q.items := by simpa using hi
    rfl

theorem among_operand (q : Select) : Operand (among q) (.test (bare (among q))) :=
  operand_test rfl rfl (among_quiet q) rfl

theorem events_reads : Reads false eventsTable [word "events", blank, word "FINAL"] := by
  have hk : Reads true "events " [word "events", blank] :=
    reads_constant (by decide) fun _ _ _ => rfl
  exact reads_append hk (reads_word "FINAL" (by decide) (by decide)) (.inl rfl)

theorem events_phrase : phrase eventsTable = [word "events", blank, word "FINAL"] :=
  phrase_reads events_reads

theorem events_part : Part eventsTable :=
  part_reads events_reads (by decide)

theorem members_reads : Reads false membersTable [word membersTable] :=
  reads_word membersTable (by decide) (by decide)

theorem members_phrase : phrase membersTable = [word membersTable] :=
  phrase_reads members_reads

theorem members_part : Part membersTable :=
  part_reads members_reads (by decide)

theorem distinct_id_reads : Reads false "distinct_id" [word "distinct_id"] :=
  reads_word "distinct_id" (by decide) (by decide)

theorem distinct_id_phrase : phrase "distinct_id" = [word "distinct_id"] :=
  phrase_reads distinct_id_reads

theorem distinct_id_part : Part "distinct_id" :=
  part_reads distinct_id_reads (by decide)

namespace Fragment

def select? : Fragment → Option Select
  | property _ _ => none
  | performed rows groups => some (performedSelect rows groups)
  | member rows _ => some (memberSelect rows)

def rows : Fragment → List RowTest
  | property _ _ => []
  | performed rows _ | member rows _ => rows

end Fragment

theorem select_conditions {f : Fragment} {q : Select} (h : f.select? = some q) :
    q.conditions = f.rows.map RowTest.render := by
  cases f with
  | property l t => simp [Fragment.select?] at h
  | performed rows groups =>
    obtain rfl := Option.some.inj h
    rfl
  | member rows negated =>
    obtain rfl := Option.some.inj h
    rfl

theorem proper_rows {f : Fragment} (h : f.Proper) : ∀ t ∈ f.rows, t.Proper := by
  cases f with
  | property l t => simp [Fragment.rows]
  | performed rows groups => exact h.1
  | member rows negated => exact h

theorem select_parts {f : Fragment} {q : Select} (h : f.Proper) (hq : f.select? = some q) :
    ∀ e ∈ q.surroundings, Part e := by
  intro e he
  cases f with
  | property l t => simp [Fragment.select?] at hq
  | performed rows groups =>
    obtain rfl := Option.some.inj hq
    have hs : (Fragment.performedSelect rows groups).surroundings =
        eventsTable :: "distinct_id" :: "distinct_id" :: groups.map GroupTest.render := by
      simp [Select.surroundings, Fragment.performedSelect, Select.of]
    rw [hs, List.mem_cons, List.mem_cons, List.mem_cons] at he
    rcases he with rfl | rfl | rfl | he
    · exact events_part
    · exact distinct_id_part
    · exact distinct_id_part
    · exact group_tests_parts groups h.2 e he
  | member rows negated =>
    obtain rfl := Option.some.inj hq
    have hs : (Fragment.memberSelect rows).surroundings = [membersTable, "distinct_id"] := by
      simp [Select.surroundings, Fragment.memberSelect, Select.of]
    rw [hs, List.mem_cons, List.mem_singleton] at he
    rcases he with rfl | rfl
    · exact members_part
    · exact distinct_id_part

theorem fragment_selects {f : Fragment} {q : Select} (h : f.Proper) (hq : f.select? = some q) :
    Selects q f.rows :=
  ⟨select_parts h hq, select_conditions hq, proper_rows h⟩

theorem select_text {f : Fragment} {q : Select} (h : f.Proper) (hq : f.select? = some q) :
    Reads false q.render q.items :=
  selects_text (fragment_selects h hq)

theorem fragment_reads (f : Fragment) (h : f.Proper) : Reads false f.render f.items := by
  cases f with
  | property l t => exact property_reads l t h
  | performed rows groups => exact reads_open (among_reads (select_text h rfl)) false
  | member rows negated =>
    have ha := among_reads (select_text h rfl)
    cases negated with
    | false => exact reads_open ha false
    | true =>
      have hn : Reads true "NOT " [word "NOT", blank] :=
        reads_constant (by decide) fun _ _ _ => rfl
      have hs : Fragment.render (.member rows true) =
          "NOT " ++ ("(" ++ Fragment.isAmong (Fragment.memberSelect rows) ++ ")") := by
        rw [Fragment.render]
        apply String.toList_inj.mp
        simp only [String.toList_append, List.append_assoc]
        rfl
      rw [hs]
      exact reads_open (reads_append hn (reads_group ha) (.inl rfl)) false

theorem fragment_quiet (f : Fragment) : Quiet f.items := by
  cases f with
  | property l t => exact quiet_plain (property_plain l t)
  | performed rows groups => exact among_quiet _
  | member rows negated =>
    cases negated with
    | false => exact among_quiet _
    | true =>
      intro i hi
      have hn : Quiet [word "NOT", blank] := quiet_plain (by decide)
      rcases List.mem_append.mp (show i ∈ [word "NOT", blank] ++ [_] from hi) with hi | hi
      · exact hn i hi
      · obtain rfl : i = .group (among (Fragment.memberSelect rows)) := by simpa using hi
        rfl

theorem fragment_operand (f : Fragment) : Operand f.items f.formula := by
  cases f with
  | property l t => exact property_operand l t
  | performed rows groups => exact among_operand _
  | member rows negated =>
    have ha := among_operand (Fragment.memberSelect rows)
    cases negated with
    | false => exact ha
    | true =>
      have hq := fragment_quiet (.member rows true)
      refine ⟨fun i hi => (reserved_not (hq i hi)).2.2.2.1,
        fun i hi => (reserved_not (hq i hi)).2.2.2.2, ?_⟩
      have hg := (operand_group (formula_operand ha)).reads
      have hb : withoutBlanks (pieces (Fragment.items (.member rows true))) =
          ⟨word "NOT", none⟩ ::
            withoutBlanks (pieces [.group (among (Fragment.memberSelect rows))]) := by
        rfl
      have hn : (word "NOT").isWord "NOT" = true := rfl
      rw [hb, operand, if_pos hn, hg]
      · rfl
      · intro items hi
        simp [word] at hi

theorem fragment_scopes (f : Fragment) (h : f.Proper) :
    f.items.flatMap Item.scopes = f.select?.toList.map Select.scope := by
  have hs (q : Select) (hq : f.select? = some q) : scopesOf (among q) = [q.scope] := by
    have ht := selects_scopes (fragment_selects h hq)
    rw [scopes_beside _ fun i hi => (reserved_not (among_quiet q i hi)).1]
    simp [among, word, blank, mark, Item.scopes, ht]
  have hb (q : Select) : (among q).flatMap Item.scopes = scopesOf (among q) :=
    (scopes_beside _ fun i hi => (reserved_not (among_quiet q i hi)).1).symm
  cases f with
  | property l t => exact scopes_inert _ (inert_plain (property_plain l t))
  | performed rows groups => exact (hb _).trans (hs _ rfl)
  | member rows negated =>
    cases negated with
    | false => exact (hb _).trans (hs _ rfl)
    | true =>
      have ht := hs _ rfl
      simpa [Fragment.items, Fragment.select?, word, blank, mark, Item.scopes] using ht

end CohortQuery.Sql
