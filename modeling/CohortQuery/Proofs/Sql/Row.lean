import CohortQuery.Proofs.Sql.Test

/-!
# Tests on rows as items

Every test on rows is one comparison, and so is every test on groups of rows. Neither
contains a word that structures a statement.
-/

set_option autoImplicit false

namespace CohortQuery.Sql

def Moment.Proper : Moment → Prop
  | now => True
  | bound p => p.Proper

structure Start.Proper (s : Start) : Prop where
  moment : s.moment.Proper
  days : ∀ p ∈ s.daysBefore, p.Proper

def Moment.items : Moment → List Item
  | now => call "now64" [word "3"]
  | bound p => [hole p]

def Start.items (s : Start) : List Item :=
  s.moment.items ++
    match s.daysBefore with
    | none => []
    | some p => [blank, mark '-', blank, word "INTERVAL", blank] ++ [hole p] ++ [blank, word "DAY"]

theorem moment_reads (m : Moment) (h : m.Proper) : Reads true m.render m.items := by
  cases m with
  | now => exact reads_constant (by decide) fun _ _ _ => rfl
  | bound p => exact reads_placeholder p h

theorem moment_plain (m : Moment) : Plain m.items := by
  cases m with
  | now => decide
  | bound p => exact plain_hole p

theorem start_reads (s : Start) (h : s.Proper) : Reads false s.render s.items := by
  obtain ⟨m, days⟩ := s
  have hm := moment_reads m h.moment
  cases days with
  | none => exact reads_append hm (reads_empty false) (.inl rfl)
  | some p =>
    have hi : Reads true " - INTERVAL " [blank, mark '-', blank, word "INTERVAL", blank] :=
      reads_constant (by decide) fun _ _ _ => rfl
    have hb : Reads true " " [blank] := reads_constant (by decide) fun _ _ _ => rfl
    have hd : Reads false " DAY" [blank, word "DAY"] :=
      reads_append hb (reads_word "DAY" (by decide) (by decide)) (.inl rfl)
    have hp := reads_append hi (reads_placeholder p (h.days p rfl)) (.inl rfl)
    exact reads_append hm (reads_append hp hd (.inl rfl)) (.inl rfl)

theorem start_plain (s : Start) : Plain s.items := by
  obtain ⟨m, days⟩ := s
  cases days with
  | none => exact plain_append (moment_plain m) (by decide : Plain [])
  | some p =>
    have hp : Plain ([blank, mark '-', blank, word "INTERVAL", blank] ++ [hole p]) :=
      plain_append (by decide) (plain_hole p)
    exact plain_append (moment_plain m) (plain_append hp (by decide))

def RowTest.Proper : RowTest → Prop
  | inProject | notIdentify => True
  | equal _ p => p.Proper
  | notBefore s => s.Proper
  | notAfter m => m.Proper
  | property _ t => t.Proper

def projectItems : List Item :=
  word "project_id" :: (equalityItems false ++ [hole Bindings.project])

def notLess : List Item := [blank, mark '>', mark '=', blank]

def notMore : List Item := [blank, mark '<', mark '=', blank]

def RowTest.items : RowTest → List Item
  | inProject => projectItems
  | equal column p => word column.render :: (equalityItems false ++ [hole p])
  | notBefore s => word "timestamp" :: (notLess ++ s.items)
  | notAfter m => word "timestamp" :: (notMore ++ m.items)
  | property l t => t.items l
  | notIdentify => word "event_type" :: (equalityItems true ++ [literal "identify".toList])

def projectTest : List Item :=
  [word "project_id", mark '=', hole Bindings.project]

theorem project_bare : bare RowTest.inProject.items = projectTest := rfl

theorem row_reads (t : RowTest) (h : t.Proper) : Reads false t.render t.items := by
  have hl : Reads true "timestamp >= " (word "timestamp" :: notLess) :=
    reads_constant (by decide) fun _ _ _ => rfl
  have hm : Reads true "timestamp <= " (word "timestamp" :: notMore) :=
    reads_constant (by decide) fun _ _ _ => rfl
  cases t with
  | inProject =>
    have hk : Reads true "project_id = " (word "project_id" :: equalityItems false) :=
      reads_constant (by decide) fun _ _ _ => rfl
    have hp := reads_placeholder Bindings.project (by decide)
    exact reads_open (reads_append hk hp (.inl rfl)) false
  | equal column p =>
    have hc : Reads false column.render [word column.render] := by
      cases column <;> exact reads_word _ (by decide) (by decide)
    have he := reads_append hc (equality_reads false) (.inr rfl)
    exact reads_open (reads_append he (reads_placeholder p h) (.inl rfl)) false
  | notBefore s => exact reads_append hl (start_reads s h) (.inl rfl)
  | notAfter m => exact reads_open (reads_append hm (moment_reads m h) (.inl rfl)) false
  | property l t => exact property_reads l t h
  | notIdentify =>
    have hk : Reads true "event_type != " (word "event_type" :: equalityItems true) :=
      reads_constant (by decide) fun _ _ _ => rfl
    exact reads_open (reads_append hk (reads_literal "identify" (by decide)) (.inl rfl)) false

theorem row_plain (t : RowTest) : Plain t.items := by
  cases t with
  | inProject =>
    have hk : Plain (word "project_id" :: equalityItems false) := by decide
    exact plain_append hk (plain_hole Bindings.project)
  | equal column p =>
    have hc : Plain (word column.render :: equalityItems false) := by
      cases column <;> decide
    exact plain_append hc (plain_hole p)
  | notBefore s =>
    have hl : Plain (word "timestamp" :: notLess) := by decide
    exact plain_append hl (start_plain s)
  | notAfter m =>
    have hm : Plain (word "timestamp" :: notMore) := by decide
    exact plain_append hm (moment_plain m)
  | property l t => exact property_plain l t
  | notIdentify =>
    have hk : Plain (word "event_type" :: equalityItems true) := by decide
    exact plain_append hk (plain_literal _)

theorem row_operand (t : RowTest) : Operand t.items (.test (bare t.items)) := by
  have hq := quiet_plain (row_plain t)
  cases t with
  | inProject => exact operand_test rfl rfl hq rfl
  | equal column p => cases column <;> exact operand_test rfl rfl hq rfl
  | notBefore s => exact operand_test rfl rfl hq rfl
  | notAfter m => exact operand_test rfl rfl hq rfl
  | property l t => exact property_operand l t
  | notIdentify => exact operand_test rfl rfl hq rfl

theorem row_phrase (t : RowTest) (h : t.Proper) : phrase t.render = t.items :=
  phrase_reads (row_reads t h)

theorem rows_phrases (ts : List RowTest) (h : ∀ t ∈ ts, t.Proper) :
    (ts.map RowTest.render).map phrase = ts.map RowTest.items := by
  rw [List.map_map]
  exact List.map_congr_left fun t ht => row_phrase t (h t ht)

theorem row_part (t : RowTest) (h : t.Proper) : Part t.render :=
  part_reads (row_reads t h) (row_plain t)

theorem rows_parts (ts : List RowTest) (h : ∀ t ∈ ts, t.Proper) :
    ∀ e ∈ ts.map RowTest.render, Part e := by
  intro e he
  obtain ⟨t, ht, rfl⟩ := List.mem_map.mp he
  exact row_part t (h t ht)

theorem rows_operands (ts : List RowTest) (h : ∀ t ∈ ts, t.Proper) :
    List.Forall₂ (fun e f => Operand (phrase e) f) (ts.map RowTest.render)
      (ts.map fun t => .test (bare t.items)) := by
  induction ts with
  | nil => exact .nil
  | cons t ts ih =>
    have ht := h t (by simp)
    refine .cons ?_ (ih fun u hu => h u (by simp [hu]))
    rw [row_phrase t ht]
    exact row_operand t

/-- The conditions of the statement are tests on rows. -/
structure Selects (q : Select) (ts : List RowTest) : Prop where
  parts : ∀ e ∈ q.surroundings, Part e
  conditions : q.conditions = ts.map RowTest.render
  proper : ∀ t ∈ ts, t.Proper

section

variable {q : Select} {ts : List RowTest} (h : Selects q ts)

include h

theorem selects_conditions : ∀ e ∈ q.conditions, Part e := by
  rw [h.conditions]
  exact rows_parts ts h.proper

theorem selects_text : Reads false q.render q.items := by
  refine select_reads q ?_
  intro e he
  rcases List.mem_append.mp he with he | he
  · exact (h.parts e he).legible
  · exact (selects_conditions h e he).legible

theorem selects_scopes : scopesOf q.items = [q.scope] := by
  have hc := selects_conditions h
  have hn : (q.conditions.flatMap fun e => (phrase e).flatMap Item.scopes) = [] := by
    rw [List.flatMap_eq_nil_iff]
    intro e he
    exact scopes_inert _ (inert_plain (hc e he).plain)
  rw [select_scopes q (fun e he => (h.parts e he).plain)
    (fun e he => quiet_plain (hc e he).plain), hn]

theorem selects_where (hn : ts ≠ []) : ∃ is, whereOf q.scope = some is ∧
    formula is = some (.all (ts.map fun t => .test (bare t.items))) := by
  refine select_formula q (fun e he => (h.parts e he).plain)
    (fun e he => quiet_plain (selects_conditions h e he).plain) _ ?_ ?_
  · rw [h.conditions]
    simpa using hn
  · rw [h.conditions]
    exact rows_operands ts h.proper

end

def GroupTest.Proper : GroupTest → Prop
  | count _ p | periods _ p => p.Proper
  | firstNotBefore s => s.Proper
  | firstNotAfter m => m.Proper

def periodItems : Period → List Item
  | .day => call "toStartOfDay" [word "timestamp"]
  | .week => call "toStartOfWeek" [word "timestamp", mark ',', blank, word "1"]
  | .month => call "toStartOfMonth" [word "timestamp"]

def GroupTest.items : GroupTest → List Item
  | count op p => call "count" [] ++ [blank] ++ symbol op.symbol ++ [blank] ++ [hole p]
  | periods period p => call "uniqExact" (periodItems period) ++ notLess ++ [hole p]
  | firstNotBefore s => call "min" [word "timestamp"] ++ notLess ++ s.items
  | firstNotAfter m => call "min" [word "timestamp"] ++ notMore ++ m.items

theorem group_test_reads (t : GroupTest) (h : t.Proper) : Reads false t.render t.items := by
  have hl : Reads true "min(timestamp) >= " (call "min" [word "timestamp"] ++ notLess) :=
    reads_constant (by decide) fun _ _ _ => rfl
  have hm : Reads true "min(timestamp) <= " (call "min" [word "timestamp"] ++ notMore) :=
    reads_constant (by decide) fun _ _ _ => rfl
  cases t with
  | count op p =>
    have hc : Reads true "count() " (call "count" [] ++ [blank]) :=
      reads_constant (by decide) fun _ _ _ => rfl
    have hb : Reads true " " [blank] := reads_constant (by decide) fun _ _ _ => rfl
    have hs : Reads true op.symbol (symbol op.symbol) := by
      cases op <;> exact reads_constant (by decide) fun _ _ _ => rfl
    have ho := reads_append (reads_append hc hs (.inl rfl)) hb (.inl rfl)
    exact reads_open (reads_append ho (reads_placeholder p h) (.inl rfl)) false
  | periods period p =>
    have hs : Reads true period.start (periodItems period) := by
      cases period <;> exact reads_constant (by decide) fun _ _ _ => rfl
    have hn : Reads true " >= " notLess := reads_constant (by decide) fun _ _ _ => rfl
    have hc : Reads true ("uniqExact" ++ _) (call "uniqExact" _) :=
      reads_call (by decide) (by decide) hs
    have hu := reads_append (reads_append hc hn (.inl rfl)) (reads_placeholder p h) (.inl rfl)
    have hr : ("uniqExact" ++ "(") ++ period.start ++ (")" ++ " >= ") ++ p.render =
        "uniqExact" ++ ("(" ++ period.start ++ ")") ++ " >= " ++ p.render := by
      simp only [String.append_assoc]
    rw [← hr] at hu
    exact reads_open hu false
  | firstNotBefore s => exact reads_append hl (start_reads s h) (.inl rfl)
  | firstNotAfter m => exact reads_open (reads_append hm (moment_reads m h) (.inl rfl)) false

theorem group_test_plain (t : GroupTest) : Plain t.items := by
  cases t with
  | count op p =>
    have hs : Plain (call "count" [] ++ [blank] ++ symbol op.symbol ++ [blank]) := by
      cases op <;> decide
    exact plain_append hs (plain_hole p)
  | periods period p =>
    have hu : Plain (call "uniqExact" (periodItems period) ++ notLess) := by
      cases period <;> decide
    exact plain_append hu (plain_hole p)
  | firstNotBefore s =>
    have hl : Plain (call "min" [word "timestamp"] ++ notLess) := by decide
    exact plain_append hl (start_plain s)
  | firstNotAfter m =>
    have hm : Plain (call "min" [word "timestamp"] ++ notMore) := by decide
    exact plain_append hm (moment_plain m)

theorem group_tests_parts (ts : List GroupTest) (h : ∀ t ∈ ts, t.Proper) :
    ∀ e ∈ ts.map GroupTest.render, Part e := by
  intro e he
  obtain ⟨t, ht, rfl⟩ := List.mem_map.mp he
  exact part_reads (group_test_reads t (h t ht)) (group_test_plain t)

end CohortQuery.Sql
