import CohortQuery.Proofs.Binder
import CohortQuery.Proofs.Cohort.Statement
import CohortQuery.Property.Discovery
import CohortQuery.Report.Query

/-!
# What a report is lowered to

A filter becomes tests on rows, of which the first is on the project, and binds the values
that it has under their own names.
-/

set_option autoImplicit false

namespace CohortQuery

open Binder (Yields yields_bind yields_pure yields_check yields_named)
open Sql (Part RowTest Select Selects)

def Bindings.nameAll (b : Bindings) (values : List (String × Value)) : Bindings :=
  values.foldl (fun b (name, v) => (b.bindNamed name v).2) b

theorem name_all_append (b : Bindings) (us vs : List (String × Value)) :
    b.nameAll (us ++ vs) = (b.nameAll us).nameAll vs :=
  List.foldl_append

theorem name_all_get (b : Bindings) (name : String) (vs : List (String × Value))
    (h : ∀ v ∈ vs, name ≠ v.1) : (b.nameAll vs).params.get? name = b.params.get? name := by
  induction vs generalizing b with
  | nil => rfl
  | cons v vs ih =>
    have ht := ih (b.bindNamed v.1 v.2).2 fun w hw => h w (by simp [hw])
    have hb : (b.bindNamed v.1 v.2).2.params = b.params.set v.1 v.2 := rfl
    rw [hb, get_set_other _ _ _ _ (h v (by simp))] at ht
    exact ht

namespace Report

def Filter.optionalTests (name : String) (make : Placeholder → RowTest) (v : Option Value) :
    List RowTest :=
  (v.map fun v => make ⟨name, v.type⟩).toList

def Filter.optionalValues (name : String) (v : Option Value) : List (String × Value) :=
  (v.map fun v => (name, v)).toList

theorem yields_optional (name : String) (make : Placeholder → RowTest) (v : Option Value)
    (b c : Bindings) (ts : List RowTest) : (Filter.bindOptional name make v).Yields b ts c ↔
      ts = Filter.optionalTests name make v ∧ c = b.nameAll (Filter.optionalValues name v) := by
  cases v with
  | none => exact yields_pure _ _ _ _
  | some v =>
    simp only [Filter.bindOptional, yields_bind, yields_named, yields_pure]
    constructor
    · rintro ⟨_, _, ⟨rfl, rfl⟩, rfl, rfl⟩
      exact ⟨rfl, rfl⟩
    · rintro ⟨rfl, rfl⟩
      exact ⟨_, _, ⟨rfl, rfl⟩, rfl, rfl⟩

namespace Filter

variable (f : Filter) (bounds : Option String × Option String)

def tests : List RowTest :=
  .inProject :: optionalTests "event_name" (.equal .eventName) ((nonBlank f.event).map .text) ++
    optionalTests "distinct_id" (.equal .distinctId) ((nonBlank f.distinctId).map .text) ++
    optionalTests "from" (fun p => .notBefore ⟨.bound p, none⟩) (bounds.1.map .time) ++
    optionalTests "to" (fun p => .notAfter (.bound p)) (bounds.2.map .time)

def values : List (String × Value) :=
  optionalValues "event_name" ((nonBlank f.event).map .text) ++
    optionalValues "distinct_id" ((nonBlank f.distinctId).map .text) ++
    optionalValues "from" (bounds.1.map .time) ++ optionalValues "to" (bounds.2.map .time)

end Filter

theorem yields_report_filter (f : Filter) (b c : Bindings) (ts : List RowTest) :
    f.compile.Yields b ts c ↔ ∃ bounds, f.range = .ok bounds ∧ ts = f.tests bounds ∧
      c = b.nameAll (f.values bounds) := by
  simp only [Filter.compile, yields_bind, yields_check, yields_optional, yields_pure]
  constructor
  · rintro ⟨bounds, _, ⟨hr, rfl⟩, _, _, ⟨rfl, rfl⟩, _, _, ⟨rfl, rfl⟩, _, _, ⟨rfl, rfl⟩, _, _,
      ⟨rfl, rfl⟩, rfl, rfl⟩
    simp only [← name_all_append]
    exact ⟨bounds, hr, rfl, rfl⟩
  · rintro ⟨bounds, hr, rfl, rfl⟩
    refine ⟨bounds, _, ⟨hr, rfl⟩, _, _, ⟨rfl, rfl⟩, _, _, ⟨rfl, rfl⟩, _, _, ⟨rfl, rfl⟩, _, _,
      ⟨rfl, rfl⟩, rfl, ?_⟩
    simp only [← name_all_append]
    rfl

def numberValue (name : String) (n : Option Nat) : List (String × Value) :=
  (n.map fun n => (name, .word n)).toList

def numberPlace (name : String) (n : Option Nat) : Option Placeholder :=
  n.map fun _ => ⟨name, .word⟩

theorem yields_number (name : String) (n : Option Nat) (b c : Bindings)
    (p : Option Placeholder) : (bindNumber name n).Yields b p c ↔
      p = numberPlace name n ∧ c = b.nameAll (numberValue name n) := by
  cases n with
  | none => exact yields_pure _ _ _ _
  | some n =>
    simp only [bindNumber, yields_bind, yields_named, yields_pure]
    constructor
    · intro h
      obtain ⟨_, _, ⟨rfl, rfl⟩, rfl, rfl⟩ := h
      exact ⟨rfl, rfl⟩
    · intro h
      obtain ⟨rfl, rfl⟩ := h
      exact ⟨_, _, ⟨rfl, rfl⟩, rfl, rfl⟩

def select (kind : Kind) (tests : List RowTest) : Select :=
  { Select.of Sql.eventsTable with
    columns := kind.columns
    conditions := (tests ++ kind.ownTests).map RowTest.render
    groups := kind.groups
    order := kind.order
    limit := (numberPlace "limit" kind.limit?).map Placeholder.render
    offset := (numberPlace "offset" kind.offset?).map Placeholder.render }

def values (kind : Kind) (filter : Filter) (bounds : Option String × Option String) :
    List (String × Value) :=
  filter.values bounds ++ numberValue "limit" kind.limit? ++ numberValue "offset" kind.offset?

theorem yields_report (kind : Kind) (filter : Filter) (b c : Bindings) (q : Select) :
    (compileSelect kind filter).Yields b q c ↔ ∃ bounds, filter.range = .ok bounds ∧
      q = select kind (filter.tests bounds) ∧ c = b.nameAll (values kind filter bounds) := by
  simp only [compileSelect, yields_bind, yields_report_filter, yields_number, yields_pure]
  constructor
  · intro h
    obtain ⟨_, _, ⟨bounds, hr, rfl, rfl⟩, _, _, ⟨rfl, rfl⟩, _, _, ⟨rfl, rfl⟩, rfl, rfl⟩ := h
    simp only [← name_all_append]
    exact ⟨bounds, hr, rfl, rfl⟩
  · intro h
    obtain ⟨bounds, hr, rfl, rfl⟩ := h
    refine ⟨_, _, ⟨bounds, hr, rfl, rfl⟩, _, _, ⟨rfl, rfl⟩, _, _, ⟨rfl, rfl⟩, rfl, ?_⟩
    simp only [← name_all_append]
    rfl

theorem query_ok (projectId : String) (kind : Kind) (filter : Filter) (q : Query) :
    query projectId kind filter = .ok q ↔ ∃ b bounds, Bindings.forProject projectId = .ok b ∧
      filter.range = .ok bounds ∧ q = (b.nameAll (values kind filter bounds)).finish
        (select kind (filter.tests bounds)).render := by
  have hf (b : Bindings) : finishSelect (compileSelect kind filter) b = .ok q ↔ ∃ s c,
      (compileSelect kind filter).Yields b s c ∧ q = c.finish s.render := by
    apply Binder.outcome_ok (compileSelect kind filter) b fun s c => c.finish s.render
    · intro s c h
      unfold Binder.outcome at h
      rw [finishSelect, h]
    · intro e c h
      unfold Binder.outcome at h
      rw [finishSelect, h]
  simp only [query, Binder.except_bind, hf, yields_report]
  constructor
  · intro h
    obtain ⟨b, hb, _, _, ⟨bounds, hr, rfl, rfl⟩, rfl⟩ := h
    exact ⟨b, bounds, hb, hr, rfl⟩
  · intro h
    obtain ⟨b, bounds, hb, hr, rfl⟩ := h
    exact ⟨b, hb, _, _, ⟨bounds, hr, rfl, rfl⟩, rfl⟩

theorem optional_proper (name : String) (make : Placeholder → RowTest) (v : Option Value)
    (h : ∀ p : Placeholder, p.name = name → (make p).Proper) :
    ∀ t ∈ Filter.optionalTests name make v, t.Proper := by
  intro t ht
  cases v with
  | none => simp [Filter.optionalTests] at ht
  | some v =>
    obtain rfl : t = make ⟨name, v.type⟩ := by simpa [Filter.optionalTests] using ht
    exact h _ rfl

theorem tests_proper (f : Filter) (bounds : Option String × Option String) :
    ∀ t ∈ f.tests bounds, t.Proper := by
  have named (name : String) (h : Sql.Wordlike name)
      (p : Placeholder) (hp : p.name = name) : p.Proper := by
    intro c hc
    rw [hp] at hc
    exact h c hc
  have lower (p : Placeholder) (hp : p.name = "from") :
      RowTest.Proper (.notBefore ⟨.bound p, none⟩) :=
    ⟨named "from" (by decide) p hp, fun q hq => by cases hq⟩
  intro t ht
  simp only [Filter.tests, List.mem_append, List.mem_cons] at ht
  rcases ht with (((rfl | ht) | ht) | ht) | ht
  · trivial
  · exact optional_proper _ _ _ (named "event_name" (by decide)) t ht
  · exact optional_proper _ _ _ (named "distinct_id" (by decide)) t ht
  · exact optional_proper _ _ _ lower t ht
  · exact optional_proper _ _ _ (named "to" (by decide)) t ht

theorem number_part (name : String) (n : Option Nat)
    (h : Sql.Wordlike name) :
    ∀ e ∈ ((numberPlace name n).map Placeholder.render).toList, Part e := by
  intro e he
  cases n with
  | none => simp [numberPlace] at he
  | some n =>
    obtain rfl : e = (⟨name, .word⟩ : Placeholder).render := by simpa [numberPlace] using he
    exact Sql.part_reads (Sql.reads_placeholder _ h) (Sql.plain_hole _)

theorem users_part : Part Kind.columns.users := by
  have hn : "uniq(" = "uniq" ++ "(" := Sql.joined_chars rfl
  have hw : " AS unique_users" = " AS " ++ "unique_users" := Sql.joined_chars rfl
  have hu : Kind.columns.users =
      "uniq" ++ ("(" ++ Sql.resolvedPerson ++ ")") ++ (" AS " ++ "unique_users") := by
    rw [Kind.columns.users, Sql.personCount, hn, hw]
    simp only [String.append_assoc]
  have ha : Sql.Reads true " AS " (Sql.spaced "AS") :=
    Sql.reads_constant (by decide) fun _ _ _ => rfl
  have hl := Sql.reads_append ha (Sql.reads_word "unique_users" (by decide) (by decide)) (.inl rfl)
  have hc : Sql.Reads true ("uniq" ++ _) (Sql.call "uniq" _) :=
    Sql.reads_call (by decide) (by decide) resolved_reads
  rw [hu]
  exact Sql.part_reads (Sql.reads_append hc hl (.inl rfl))
    (Sql.plain_append (Sql.plain_call rfl resolved_plain) (by decide))

theorem count_part : Part "count() AS count" :=
  Sql.part_constant (by decide)

theorem label_part : ∀ e ∈ ["event_id", "event_name", "event_type", "distinct_id", "person_id",
    "session_id", "properties", "timestamp", "period"], Part e := by
  simp only [List.forall_mem_cons]
  exact ⟨Sql.part_constant (by decide), Sql.part_constant (by decide),
    Sql.part_constant (by decide), Sql.part_constant (by decide), Sql.part_constant (by decide),
    Sql.part_constant (by decide), Sql.part_constant (by decide), Sql.part_constant (by decide),
    Sql.part_constant (by decide), by simp⟩

theorem bucket_part (g : Granularity) : Part (g.bucket ++ " AS period") := by
  have hb : Part g.bucket := by
    cases g <;> exact Sql.part_constant (by decide)
  have ha : Sql.Reads true " AS " (Sql.spaced "AS") :=
    Sql.reads_constant (by decide) fun _ _ _ => rfl
  have hp := Sql.reads_append ha (Sql.reads_word "period" (by decide) (by decide)) (.inl rfl)
  exact Sql.part_reads (Sql.reads_append hb.legible hp (.inr rfl))
    (Sql.plain_append hb.plain (by decide))

theorem columns_parts (kind : Kind) : ∀ e ∈ kind.columns, Part e := by
  intro e he
  cases kind with
  | events limit offset =>
    have hs : Kind.columns (.events limit offset) =
        ["event_id", "event_name", "event_type", "distinct_id", "person_id"] ++
          Sql.resolvedPersonColumn :: ["session_id", "properties", "timestamp"] := rfl
    rw [hs] at he
    rcases List.mem_append.mp he with he | he
    · exact label_part e (List.mem_append_left _ he)
    · rcases List.mem_cons.mp he with rfl | he
      · exact resolved_person_part
      · simp only [List.mem_cons, List.not_mem_nil, or_false] at he
        rcases he with rfl | rfl | rfl <;> exact label_part _ (by simp)
  | totals =>
    simp only [Kind.columns, List.mem_cons, List.not_mem_nil, or_false] at he
    rcases he with rfl | rfl | rfl
    · exact count_part
    · exact users_part
    · exact Sql.part_constant (by decide)
  | trend g =>
    simp only [Kind.columns, List.mem_cons, List.not_mem_nil, or_false] at he
    rcases he with rfl | rfl | rfl
    · exact bucket_part g
    · exact count_part
    · exact users_part
  | top limit =>
    simp only [Kind.columns, List.mem_cons, List.not_mem_nil, or_false] at he
    rcases he with rfl | rfl | rfl
    · exact label_part _ (by simp)
    · exact count_part
    · exact users_part

theorem kind_parts (kind : Kind) : ∀ e ∈ kind.groups ++ kind.order, Part e := by
  intro e he
  cases kind with
  | totals => simp [Kind.groups, Kind.order] at he
  | events limit offset =>
    obtain rfl : e = "timestamp DESC" := by simpa [Kind.groups, Kind.order] using he
    exact Sql.part_constant (by decide)
  | trend g =>
    obtain rfl : e = "period" := by simpa [Kind.groups, Kind.order] using he
    exact label_part _ (by simp)
  | top limit =>
    simp only [Kind.groups, Kind.order, List.cons_append, List.nil_append, List.mem_cons,
      List.not_mem_nil, or_false] at he
    rcases he with rfl | rfl | rfl
    · exact label_part _ (by simp)
    · exact Sql.part_constant (by decide)
    · exact label_part _ (by simp)

theorem report_selects (kind : Kind) (f : Filter) (bounds : Option String × Option String) :
    Selects (select kind (f.tests bounds)) (f.tests bounds ++ kind.ownTests) := by
  refine ⟨?_, rfl, ?_⟩
  · intro e he
    have hs : (select kind (f.tests bounds)).surroundings = Sql.eventsTable ::
        (kind.columns ++ kind.groups ++ [] ++ kind.order ++
          ((numberPlace "limit" kind.limit?).map Placeholder.render).toList ++
          ((numberPlace "offset" kind.offset?).map Placeholder.render).toList) := rfl
    rw [hs] at he
    simp only [List.mem_cons, List.mem_append, List.not_mem_nil, or_false] at he
    rcases he with rfl | (((he | he) | he) | he) | he
    · exact Sql.events_part
    · exact columns_parts kind e he
    · exact kind_parts kind e (by simp [he])
    · exact kind_parts kind e (by simp [he])
    · exact number_part _ _ (by decide) e he
    · exact number_part _ _ (by decide) e he
  · intro t ht
    rcases List.mem_append.mp ht with ht | ht
    · exact tests_proper f bounds t ht
    · cases kind with
      | events | top => simp [Kind.ownTests] at ht
      | totals | trend =>
        obtain rfl : t = .notIdentify := by simpa [Kind.ownTests] using ht
        trivial

end Report

namespace Discovery

def tests : List RowTest :=
  [.inProject, .notBefore ⟨.now, some ⟨"days", .word⟩⟩]

def select : Select :=
  { (Select.of Sql.eventsTable).distinct with
    columns := [namesColumn]
    conditions := tests.map RowTest.render
    order := ["property"]
    limit := some (⟨"limit", .word⟩ : Placeholder).render }

def values (days limit : Nat) : List (String × Value) :=
  [("days", .word days), ("limit", .word (max 1 limit))]

theorem query_ok (projectId : String) (days limit : Nat) (q : Query) :
    query projectId days limit = .ok q ↔ ∃ b, ¬(days = 0 ∨ Limits.windowDays < days) ∧
      Bindings.forProject projectId = .ok b ∧
        q = (b.nameAll (values days limit)).finish select.render := by
  unfold query
  by_cases hd : days = 0 ∨ Limits.windowDays < days
  · simp [hd]
  · rw [if_neg hd, Binder.except_bind]
    constructor
    · intro h
      obtain ⟨b, hb, hq⟩ := h
      exact ⟨b, hd, hb, (Except.ok.inj hq).symm⟩
    · intro h
      obtain ⟨b, _, hb, rfl⟩ := h
      exact ⟨b, hb, rfl⟩

theorem names_part : Part namesColumn := by
  change Part
    "arrayJoin(arrayConcat(JSONExtractKeys(properties), JSONExtractKeys(person_properties))) AS property"
  exact Sql.part_constant (by decide)

theorem selects : Selects select tests := by
  refine ⟨?_, rfl, ?_⟩
  · intro e he
    have hs : select.surroundings = [Sql.eventsTable, namesColumn, "property",
        (⟨"limit", .word⟩ : Placeholder).render] := rfl
    simp only [hs, List.mem_cons, List.not_mem_nil, or_false] at he
    rcases he with rfl | rfl | rfl | rfl
    · exact Sql.events_part
    · exact names_part
    · exact Sql.part_constant (by decide)
    · exact Sql.part_reads (Sql.reads_placeholder _ (by decide)) (Sql.plain_hole _)
  · intro t ht
    simp only [tests, List.mem_cons, List.not_mem_nil, or_false] at ht
    rcases ht with rfl | rfl
    · trivial
    · refine ⟨trivial, ?_⟩
      intro p hp
      obtain rfl : (⟨"days", .word⟩ : Placeholder) = p := Option.some.inj hp
      exact (by decide : Placeholder.Proper ⟨"days", .word⟩)

end Discovery

end CohortQuery
