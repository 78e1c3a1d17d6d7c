import CohortQuery.Proofs.Sql.Hole
import CohortQuery.Store.Template

/-!
# Statements as templates

A statement on events or on stored members has no question mark in it, whatever the names of
its properties and placeholders are. So the client sends it as it is.
-/

set_option autoImplicit false

namespace CohortQuery

open Sql
open Store (Template.bindChars Template.expand Template.expandChars Template.unmarkedChars)

/-- As a template the text stands for itself. -/
abbrev Verbatim (s : String) : Prop :=
  Lacks '?' s

theorem expand_chars_append {cs : List Char} (h : '?' ∉ cs) (ds : List Char) :
    Template.expandChars (cs ++ ds) = (Template.expandChars ds).map (cs ++ ·) := by
  induction cs with
  | nil =>
    rw [List.nil_append]
    cases Template.expandChars ds <;> rfl
  | cons c cs ih =>
    obtain ⟨hc, ht⟩ := not_or.mp (mt List.mem_cons.mpr h)
    rw [List.cons_append, Template.expandChars, ih ht]
    · cases Template.expandChars ds <;> rfl
    · exact fun _ he _ => hc he.symm
    · exact fun he => hc he.symm

theorem expand_chars_verbatim (cs : List Char) (h : '?' ∉ cs) :
    Template.expandChars cs = .ok cs := by
  have ha := expand_chars_append h []
  rw [List.append_nil] at ha
  rw [ha]
  exact congrArg Except.ok (List.append_nil cs)

theorem expand_verbatim {s : String} (h : Verbatim s) : Template.expand s = .ok s := by
  rw [Template.expand, expand_chars_verbatim _ h]
  exact congrArg Except.ok String.ofList_toList

theorem expand_unmarked (cs ds : List Char) :
    Template.expandChars (Template.unmarkedChars cs ++ ds) =
      (Template.expandChars ds).map (cs ++ ·) := by
  induction cs with
  | nil => exact expand_chars_append List.not_mem_nil ds
  | cons c cs ih =>
    have hm : (Template.expandChars (Template.unmarkedChars cs ++ ds)).map (c :: ·) =
        (Template.expandChars ds).map (c :: cs ++ ·) := by
      rw [ih]
      cases Template.expandChars ds <;> rfl
    rw [← hm]
    by_cases hc : c = '?'
    · subst hc
      rfl
    · have hs : Template.unmarkedChars (c :: cs) = c :: Template.unmarkedChars cs := by
        simp [Template.unmarkedChars, hc]
      rw [hs, List.cons_append, Template.expandChars]
      · exact fun _ he _ => hc he
      · exact fun he => hc he

theorem bind_append {cs : List Char} (h : '?' ∉ cs) (args : List String) (ds : List Char) :
    Template.bindChars args (cs ++ ds) = cs ++ Template.bindChars args ds := by
  induction cs with
  | nil => rfl
  | cons c cs ih =>
    obtain ⟨hc, ht⟩ := not_or.mp (mt List.mem_cons.mpr h)
    rw [List.cons_append, Template.bindChars, ih ht, List.cons_append]
    · exact fun _ he _ => hc he.symm
    · exact fun _ he => hc he.symm
    · exact fun _ _ _ he => hc he.symm

theorem bind_mark (arg : String) (args : List String) {d : Char} (h : d ≠ '?') (ds : List Char) :
    Template.bindChars (arg :: args) ('?' :: d :: ds) =
      Template.unmarkedChars arg.toList ++ Template.bindChars args (d :: ds) := by
  rw [Template.bindChars]
  exact fun _ he => h (List.cons.inj he).1

theorem verbatim_spelled {spell : Char → List Char} (hs : ∀ c, '?' ∈ spell c → '?' = c)
    {s : String} (h : Verbatim s) : Verbatim (String.ofList (s.toList.flatMap spell)) := by
  refine lacks_chars _ fun hm => ?_
  obtain ⟨c, hc, hq⟩ := List.mem_flatMap.mp hm
  exact h (hs c hq ▸ hc)

theorem verbatim_placeholder {p : Placeholder} (h : p.Proper) : Verbatim p.render := by
  have ho : Verbatim "\x7b" := lacks_chars _ (by decide)
  have hn : Verbatim p.name := fun hc => absurd (h _ hc) (by decide)
  have hm : Verbatim ":" := lacks_chars _ (by decide)
  have ht : Verbatim p.type.render := by cases p.type <;> exact lacks_chars _ (by decide)
  have hc : Verbatim "\x7d" := lacks_chars _ (by decide)
  exact ho.append hn |>.append hm |>.append ht |>.append hc

theorem verbatim_key (n : PropertyName) : Verbatim n.text :=
  fun hc => absurd (safe_chars n _ hc) (by decide)

theorem verbatim_reader (l : Lookup) {before behind : String} (hb : Verbatim before)
    (ha : Verbatim behind) :
    Verbatim (before ++ l.bag.column ++ ", '" ++ l.key.text ++ behind) := by
  have hc : Verbatim l.bag.column := by cases l.bag <;> exact lacks_chars _ (by decide)
  have hm : Verbatim ", '" := lacks_chars _ (by decide)
  exact hb.append hc |>.append hm |>.append (verbatim_key l.key) |>.append ha

theorem verbatim_lookup (l : Lookup) :
    Verbatim l.text ∧ Verbatim l.raw ∧ Verbatim l.number := by
  have hq : Verbatim "')" := lacks_chars _ (by decide)
  have hs : Verbatim "JSONExtractString(" := lacks_chars _ (by decide)
  have hw : Verbatim "JSONExtractRaw(" := lacks_chars _ (by decide)
  have hj : Verbatim "coalesce(JSONExtract(" := lacks_chars _ (by decide)
  have hf : Verbatim "', 'Nullable(Float64)'), toFloat64OrNull(" := lacks_chars _ (by decide)
  have hc : Verbatim "))" := lacks_chars _ (by decide)
  have ht : Verbatim l.text := verbatim_reader l hs hq
  have hr : Verbatim l.raw := verbatim_reader l hw hq
  have hn := verbatim_reader l hj hf
  exact ⟨ht, hr, (hn.append ht).append hc⟩

theorem verbatim_property (l : Lookup) {t : PropertyTest} (h : t.Proper) :
    Verbatim (t.render l) := by
  obtain ⟨ht, hr, hn⟩ := verbatim_lookup l
  have he (negated : Bool) : Verbatim (equality negated) := by
    cases negated <;> exact lacks_chars _ (by decide)
  cases t with
  | text negated p =>
    exact ht.append (he negated) |>.append (verbatim_placeholder h)
  | flag negated p =>
    exact hr.append (he negated) |>.append (verbatim_placeholder h)
  | number negated p =>
    have hf : Verbatim "ifNull(" := lacks_chars _ (by decide)
    have h1 : Verbatim ", 1)" := lacks_chars _ (by decide)
    cases negated with
    | false =>
      exact hn.append (he false) |>.append (verbatim_placeholder h)
    | true =>
      exact hf.append hn |>.append (he true) |>.append (verbatim_placeholder h) |>.append h1
  | ordered order p =>
    have hb : Verbatim " " := lacks_chars _ (by decide)
    have ho : Verbatim order.symbol := by cases order <;> exact lacks_chars _ (by decide)
    exact hn.append hb |>.append ho |>.append hb |>.append (verbatim_placeholder h)
  | like negated p =>
    have hl : Verbatim (if negated then " NOT LIKE " else " LIKE ") := by
      cases negated <;> exact lacks_chars _ (by decide)
    exact ht.append hl |>.append (verbatim_placeholder h)
  | isSet negated =>
    have hf : Verbatim "nullIf(" := lacks_chars _ (by decide)
    have hi : Verbatim ", '') IS " := lacks_chars _ (by decide)
    have hk : Verbatim (if negated then "NULL" else "NOT NULL") := by
      cases negated <;> exact lacks_chars _ (by decide)
    exact hf.append hr |>.append hi |>.append hk

theorem verbatim_moment {m : Moment} (h : m.Proper) : Verbatim m.render := by
  cases m with
  | now => exact lacks_chars _ (by decide)
  | bound p => exact verbatim_placeholder h

theorem verbatim_start {s : Start} (h : s.Proper) : Verbatim s.render := by
  have hi : Verbatim " - INTERVAL " := lacks_chars _ (by decide)
  have hd : Verbatim " DAY" := lacks_chars _ (by decide)
  obtain ⟨m, days⟩ := s
  refine (verbatim_moment h.moment).append ?_
  cases days with
  | none => exact lacks_chars [] (by simp)
  | some p => exact hi.append (verbatim_placeholder (h.days p rfl)) |>.append hd

theorem verbatim_row {t : RowTest} (h : t.Proper) : Verbatim t.render := by
  cases t with
  | inProject =>
    have hw : Verbatim "project_id = " := lacks_chars _ (by decide)
    have hp : Bindings.project.Proper := by decide
    exact hw.append (verbatim_placeholder hp)
  | equal column p =>
    have hc : Verbatim column.render := by cases column <;> exact lacks_chars _ (by decide)
    have he : Verbatim " = " := lacks_chars _ (by decide)
    exact hc.append he |>.append (verbatim_placeholder h)
  | notBefore s =>
    have hw : Verbatim "timestamp >= " := lacks_chars _ (by decide)
    exact hw.append (verbatim_start h)
  | notAfter m =>
    have hw : Verbatim "timestamp <= " := lacks_chars _ (by decide)
    exact hw.append (verbatim_moment h)
  | property l t => exact verbatim_property l h
  | notIdentify => exact lacks_chars _ (by decide)

theorem verbatim_group_test {t : GroupTest} (h : t.Proper) : Verbatim t.render := by
  cases t with
  | count op p =>
    have hc : Verbatim "count() " := lacks_chars _ (by decide)
    have ho : Verbatim op.symbol := by cases op <;> exact lacks_chars _ (by decide)
    have hb : Verbatim " " := lacks_chars _ (by decide)
    exact hc.append ho |>.append hb |>.append (verbatim_placeholder h)
  | periods period p =>
    have hu : Verbatim "uniqExact(" := lacks_chars _ (by decide)
    have hp : Verbatim period.start := by cases period <;> exact lacks_chars _ (by decide)
    have hc : Verbatim ") >= " := lacks_chars _ (by decide)
    exact hu.append hp |>.append hc |>.append (verbatim_placeholder h)
  | firstNotBefore s =>
    have hw : Verbatim "min(timestamp) >= " := lacks_chars _ (by decide)
    exact hw.append (verbatim_start h)
  | firstNotAfter m =>
    have hw : Verbatim "min(timestamp) <= " := lacks_chars _ (by decide)
    exact hw.append (verbatim_moment h)

theorem verbatim_clause (head : String) {separator : String} (hh : Verbatim head)
    (hs : Verbatim separator) (es : List String) (he : ∀ e ∈ es, Verbatim e) :
    Verbatim (Select.clause head (Text.join separator) es) := by
  unfold Select.clause
  split
  · exact lacks_chars [] (by simp)
  · exact hh.append (hs.join es he)

theorem verbatim_option (head : String) (hh : Verbatim head) (o : Option String)
    (he : ∀ e ∈ o, Verbatim e) : Verbatim (Select.optionClause head o) := by
  cases o with
  | none => exact lacks_chars [] (by simp)
  | some e => exact hh.append (he e rfl)

theorem verbatim_select {q : Select} (hs : ∀ e ∈ q.surroundings, Verbatim e)
    (hc : ∀ e ∈ q.conditions, Verbatim e) : Verbatim q.render := by
  have ha : Verbatim " AND " := lacks_chars _ (by decide)
  have hm : Verbatim ", " := lacks_chars _ (by decide)
  have hd : Verbatim (if q.isDistinct then "DISTINCT " else "") := by
    split <;> exact lacks_chars _ (by decide)
  have hl : Verbatim (if q.columns.isEmpty then "*" else Select.listed q.columns) := by
    split
    · exact lacks_chars _ (by decide)
    · exact hm.join _ fun e he => hs e (by simp [Select.surroundings, he])
  have hw := verbatim_clause " WHERE " (lacks_chars _ (by decide)) ha _ hc
  have hg := verbatim_clause " GROUP BY " (lacks_chars _ (by decide)) hm q.groups
    fun e he => hs e (by simp [Select.surroundings, he])
  have hh := verbatim_clause " HAVING " (lacks_chars _ (by decide)) ha
    q.groupConditions fun e he => hs e (by simp [Select.surroundings, he])
  have ho := verbatim_clause " ORDER BY " (lacks_chars _ (by decide)) hm q.order
    fun e he => hs e (by simp [Select.surroundings, he])
  have hi := verbatim_option " LIMIT " (lacks_chars _ (by decide)) q.limit
    fun e he => hs e (by simp [Select.surroundings, Option.mem_def.mp he])
  have hj := verbatim_option " OFFSET " (lacks_chars _ (by decide)) q.offset
    fun e he => hs e (by simp [Select.surroundings, Option.mem_def.mp he])
  have hk : Verbatim "SELECT " := lacks_chars _ (by decide)
  have hf : Verbatim " FROM " := lacks_chars _ (by decide)
  have he : Verbatim q.source := hs _ (by simp [Select.surroundings])
  exact hk.append hd |>.append hl |>.append hf |>.append he |>.append hw |>.append hg |>.append hh
    |>.append ho |>.append hi |>.append hj

theorem verbatim_rows {ts : List RowTest} (h : ∀ t ∈ ts, t.Proper) :
    ∀ e ∈ ts.map RowTest.render, Verbatim e := by
  intro e he
  obtain ⟨t, ht, rfl⟩ := List.mem_map.mp he
  exact verbatim_row (h t ht)

theorem verbatim_among {q : Select} (h : Verbatim q.render) : Verbatim (Fragment.isAmong q) := by
  have ho : Verbatim "distinct_id IN (" := lacks_chars _ (by decide)
  have hc : Verbatim ")" := lacks_chars _ (by decide)
  exact ho.append h |>.append hc

theorem verbatim_fragment {f : Fragment} (h : f.Proper) : Verbatim f.render := by
  have hd : Verbatim "distinct_id" := lacks_chars _ (by decide)
  cases f with
  | property l t => exact verbatim_property l h
  | performed rows groups =>
    have he : Verbatim eventsTable := lacks_chars _ (by decide)
    refine verbatim_among (verbatim_select ?_ (verbatim_rows h.1))
    intro e hm
    simp only [Select.surroundings, Fragment.performedSelect, Select.of, List.mem_append,
      List.mem_cons, List.not_mem_nil, Option.toList_none, or_false, List.mem_map] at hm
    rcases hm with rfl | (rfl | rfl) | ⟨t, ht, rfl⟩
    · exact he
    · exact hd
    · exact hd
    · exact verbatim_group_test (h.2 t ht)
  | member rows negated =>
    have hs : Verbatim membersTable := lacks_chars _ (by decide)
    have hm : Verbatim (Fragment.isAmong (Fragment.memberSelect rows)) := by
      refine verbatim_among (verbatim_select ?_ (verbatim_rows h))
      intro e hm
      simp only [Select.surroundings, Fragment.memberSelect, Select.of, List.mem_append,
        List.mem_cons, List.not_mem_nil, Option.toList_none, or_false] at hm
      rcases hm with rfl | rfl
      · exact hs
      · exact hd
    cases negated with
    | false => exact hm
    | true =>
      have ho : Verbatim "NOT (" := lacks_chars _ (by decide)
      have hc : Verbatim ")" := lacks_chars _ (by decide)
      exact ho.append hm |>.append hc

theorem verbatim_predicate {p : Predicate} (h : p.Proper) : Verbatim p.render := by
  induction p using Tree.induct with
  | leaf f => exact verbatim_fragment (h f (by simp [Tree.leaves, Tree.fold]))
  | group j ps ih =>
    have hm : ∀ e ∈ ps.map Predicate.render, Verbatim e := by
      intro e he
      obtain ⟨p, hp, rfl⟩ := List.mem_map.mp he
      exact ih p hp (proper_group h p hp)
    have hj : Verbatim (junctionText j) := by cases j <;> exact lacks_chars _ (by decide)
    rw [Predicate.render, render_all]
    cases hs : ps.map Predicate.render with
    | nil => cases j <;> exact lacks_chars _ (by decide)
    | cons e es =>
      rw [hs] at hm
      cases es with
      | nil => exact hm e (by simp)
      | cons d ds =>
        have ho : Verbatim "(" := lacks_chars _ (by decide)
        have hc : Verbatim ")" := lacks_chars _ (by decide)
        exact ho.append (hj.join _ hm) |>.append hc

theorem verbatim_insert {p : Predicate} (h : p.Proper) :
    Verbatim (Materialization.insertText p) := by
  have hi : Verbatim "INSERT INTO " := lacks_chars _ (by decide)
  have ht : Verbatim membersTable := lacks_chars _ (by decide)
  have hl : Verbatim " (project_id, cohort_id, distinct_id) " := lacks_chars _ (by decide)
  have hs : Verbatim (insertSelect p).render := by
    refine verbatim_select ?_ ?_
    · intro e he
      have hc : cohortPlaceholder.Proper := by decide
      have hq : (insertSelect p).surroundings =
          [eventsTable, "project_id", cohortPlaceholder.render, "distinct_id"] := rfl
      simp only [hq, List.mem_cons, List.not_mem_nil, or_false] at he
      rcases he with rfl | rfl | rfl | rfl
      · exact lacks_chars _ (by decide)
      · exact lacks_chars _ (by decide)
      · exact verbatim_placeholder hc
      · exact lacks_chars _ (by decide)
    · intro e he
      have ho : Verbatim "(" := lacks_chars _ (by decide)
      have hc : Verbatim ")" := lacks_chars _ (by decide)
      have hr : RowTest.inProject.Proper := trivial
      rw [insert_restricted, restricted_conditions, insert_open.conditions] at he
      simp only [List.nil_append, List.mem_cons, List.not_mem_nil, or_false] at he
      rcases he with rfl | rfl
      · exact verbatim_row hr
      · exact ho.append (verbatim_predicate h) |>.append hc
  exact hi.append ht |>.append hl |>.append hs

theorem verbatim_scope : Verbatim storedScope := by
  have ha : Verbatim " AND " := lacks_chars _ (by decide)
  have hr := verbatim_row (stored_proper .inProject (by simp [storedRows]))
  have hc := verbatim_row
    (stored_proper (.equal .cohortId cohortPlaceholder) (by simp [storedRows]))
  exact hr.append ha |>.append hc

theorem verbatim_clear : Verbatim Materialization.clearText := by
  have hd : Verbatim "DELETE FROM " := lacks_chars _ (by decide)
  have ht : Verbatim membersTable := lacks_chars _ (by decide)
  have hw : Verbatim " WHERE " := lacks_chars _ (by decide)
  exact hd.append ht |>.append hw |>.append verbatim_scope

theorem verbatim_count : Verbatim Materialization.countText := by
  have hs : Verbatim "SELECT count() FROM " := lacks_chars _ (by decide)
  have ht : Verbatim membersTable := lacks_chars _ (by decide)
  have hw : Verbatim " FINAL WHERE " := lacks_chars _ (by decide)
  exact hs.append ht |>.append hw |>.append verbatim_scope

end CohortQuery
