import CohortQuery.Proofs.Closed
import CohortQuery.Proofs.Cohort.Reading
import CohortQuery.Proofs.Store.Tables

/-!
# Pages of events

The statement of a page is read from its text. The store puts the events that satisfy its
condition into some order that the statement allows and gives the part of them that limit and
offset say. The condition is that the filter lets the event through.
-/

set_option autoImplicit false

namespace CohortQuery

open Store (Engine Event)

structure Store.Recorded extends Event where
  id : String
  deriving DecidableEq

open Store (Recorded)

namespace Sql

/-- By time, the newest rows first or the oldest ones. -/
inductive TimeOrder where
  | newestFirst
  | oldestFirst

def TimeOrder.ofSigns? : List Sign → Option TimeOrder
  | [.name "BY", .name "timestamp", .name "DESC"] => some newestFirst
  | [.name "BY", .name "timestamp"] => some oldestFirst
  | _ => none

def TimeOrder.Allows : TimeOrder → Recorded → Recorded → Prop
  | newestFirst, r, s => s.millis ≤ r.millis
  | oldestFirst, r, s => r.millis ≤ s.millis

instance (order : TimeOrder) (r s : Recorded) : Decidable (order.Allows r s) :=
  match order with
  | .newestFirst => inferInstanceAs (Decidable (s.millis ≤ r.millis))
  | .oldestFirst => inferInstanceAs (Decidable (r.millis ≤ s.millis))

/-- The rows may be given in the order `arranged`. -/
structure TimeOrder.Arranges (order : TimeOrder) (rows arranged : List Recorded) : Prop where
  perm : arranged.Perm rows
  sorted : arranged.Pairwise order.Allows

/-- Gives a row for every event that satisfies the condition, as far as it lies in the part. -/
structure Page where
  condition : Formula RowTest
  order : TimeOrder
  limit : Placeholder
  offset : Placeholder

namespace Page

def ofClauses? (c : Clauses) : Option Page :=
  match c with
  | ⟨.name "event_id" :: .mark ',' :: _, some [.name "events", .name "FINAL"], some φ, none, none,
      some order, some [.value limit], some [.value offset]⟩ => do
    return ⟨← φ.traverse rowTestOf?, ← TimeOrder.ofSigns? order, limit, offset⟩
  | _ => none

def ofItems? : List Item → Option Page
  | [] => none
  | i :: scope => if i.isWord "SELECT" then (Clauses.ofScope? scope).bind ofClauses? else none

def read (s : String) : Option Page :=
  (Sql.read s).bind ofItems?

section

variable (q : Page) (E : Engine) (params : Params) (rows : List Recorded)

def found : List Recorded :=
  rows.filter fun r => q.condition.value (RowTest.truth E params r.toEvent) = some true

def Gives (page : List Recorded) : Prop :=
  ∃ limit offset arranged, params.read Value.word? q.limit = some limit ∧
    params.read Value.word? q.offset = some offset ∧
    q.order.Arranges (q.found E params rows) arranged ∧ page = (arranged.drop offset).take limit

end

end Page

end Sql

namespace Report

open Sql (Clauses Clauseless Page RowTest Signs Tidy phrase signs?)

namespace Filter

variable {E : Engine} {params : Params}

/-- Whether the filter lets the event through, within the project and the bounds in store form. -/
def admits (E : Engine) (project : String) (bounds : Option String × Option String) (f : Filter)
    (e : Event) : Bool :=
  e.project = project && (nonBlank f.event).all (fun s => e.name = s) &&
    (nonBlank f.distinctId).all (fun s => e.distinctId = s) &&
    bounds.1.all (fun t => E.instant t ≤ e.millis) && bounds.2.all (fun t => e.millis ≤ E.instant t)

theorem optional_truth {α : Type} (e : Event) (make : Placeholder → RowTest) (test : α → Bool)
    {name : String} {v : Option α} {bind : α → Value}
    (hp : params.Has (optionalValues name (v.map bind)))
    (ht : ∀ a, params.get? name = some (bind a) →
      (make ⟨name, (bind a).type⟩).truth E params e = some (test a)) :
    (∀ t ∈ optionalTests name make (v.map bind), t.truth E params e = some true) ↔
      v.all test = true := by
  cases v with
  | none => simp [optionalTests]
  | some a =>
    have ha := ht a (hp (name, bind a) (by simp [optionalValues]))
    simp [optionalTests, ha]

theorem tests_truth {project : String} {bounds : Option String × Option String} {f : Filter}
    (hs : params.read Value.uuid? Bindings.project = some project)
    (hp : params.Has (f.values bounds)) (e : Event) :
    (∀ t ∈ f.tests bounds, t.truth E params e = some true) ↔
      f.admits E project bounds e = true := by
  simp only [values, has_append, and_assoc] at hp
  obtain ⟨hn, hd, hl, hu⟩ := hp
  have name := optional_truth (E := E) e (.equal .eventName) (fun s => e.name = s)
    hn fun s hg => by
      have hr : params.read Value.text? ⟨"event_name", .text⟩ = some s := read_bound hg _
      simp [RowTest.truth, Value.type, hr]
  have person := optional_truth (E := E) e (.equal .distinctId) (fun s => e.distinctId = s)
    hd fun s hg => by
      have hr : params.read Value.text? ⟨"distinct_id", .text⟩ = some s := read_bound hg _
      simp [RowTest.truth, Value.type, hr]
  have lower := optional_truth (E := E) e (fun p => .notBefore ⟨.bound p, none⟩)
    (fun t => E.instant t ≤ e.millis) hl fun t hg => by
      have hr : params.read Value.time? ⟨"from", .time⟩ = some t := read_bound hg _
      simp [RowTest.truth, Sql.Start.at, Sql.Moment.at, Value.type, hr]
  have upper := optional_truth (E := E) e (fun p => .notAfter (.bound p))
    (fun t => e.millis ≤ E.instant t) hu fun t hg => by
      have hr : params.read Value.time? ⟨"to", .time⟩ = some t := read_bound hg _
      simp [RowTest.truth, Sql.Moment.at, Value.type, hr]
  have own : RowTest.truth E params e .inProject = some true ↔ e.project = project := by
    simp [RowTest.truth, hs]
  simp only [tests, List.cons_append, List.forall_mem_cons, List.forall_mem_append, own, name,
    person, lower, upper, admits, Bool.and_eq_true, decide_eq_true_eq, and_assoc]

end Filter

theorem listed_signs : ∀ {iss : List (List Sql.Item)}, (∀ is ∈ iss, ∃ ss, Signs is ss) →
    ∃ ss, Signs (Sql.between Sql.comma iss) ss
  | [], _ => ⟨[], Sql.signs_nil⟩
  | [is], h => h is (by simp)
  | is :: js :: rest, h => by
    obtain ⟨ss, hs⟩ := h is (by simp)
    obtain ⟨ts, ht⟩ := listed_signs fun ks hk => h ks (List.mem_cons_of_mem is hk)
    exact ⟨_, Sql.signs_append (Sql.signs_append hs Sql.comma_signs) ht⟩

theorem events_columns (limit offset : Nat) : ∀ e ∈ Kind.columns (.events limit offset),
    Clauseless (phrase e) ∧ ∃ ss, Signs (phrase e) ss := by
  have hr : Clauseless (phrase Sql.resolvedPersonColumn) :=
    (Sql.phrase_reads resolved_column_reads).symm ▸ resolved_clauseless
  have hw : ∀ e ∈ ["event_id", "event_name", "event_type", "distinct_id", "person_id",
      "session_id", "properties", "timestamp"],
      Clauseless (phrase e) ∧ (signs? (phrase e)).isSome = true := by
    have known {cs : List Char} (h : Clauseless ((Sql.readChars cs).getD []) ∧
        (signs? ((Sql.readChars cs).getD [])).isSome = true) :
        Clauseless (phrase (String.ofList cs)) ∧
          (signs? (phrase (String.ofList cs))).isSome = true :=
      ⟨Sql.phrase_has h.1, Sql.phrase_has (P := fun is => (signs? is).isSome = true) h.2⟩
    simp only [List.forall_mem_cons]
    exact ⟨known (by decide), known (by decide), known (by decide), known (by decide),
      known (by decide), known (by decide), known (by decide), known (by decide), by simp⟩
  intro e he
  by_cases hp : e = Sql.resolvedPersonColumn
  · exact hp ▸ ⟨hr, _, resolved_signs⟩
  · have hm := hw e (by simpa [Kind.columns, hp] using he)
    exact ⟨hm.1, Option.isSome_iff_exists.mp hm.2⟩

theorem number_phrase {name : String} (h : Sql.Wordlike name) :
    phrase (⟨name, .word⟩ : Placeholder).render = [Sql.hole ⟨name, .word⟩] :=
  Sql.phrase_reads (Sql.reads_placeholder _ h)

theorem events_tidy (limit offset : Nat) (f : Filter)
    (bounds : Option String × Option String) :
    Tidy (select (.events limit offset) (f.tests bounds)) := by
  have hs : (select (.events limit offset) (f.tests bounds)).surroundings = Sql.eventsTable ::
      (Kind.columns (.events limit offset) ++ ["timestamp DESC",
        (⟨"limit", .word⟩ : Placeholder).render, (⟨"offset", .word⟩ : Placeholder).render]) := by
    simp [select, Sql.Select.surroundings, Sql.Select.of, Kind.groups, Kind.order, Kind.limit?,
      Kind.offset?, numberPlace]
  intro e hm
  rw [List.mem_append, hs] at hm
  simp only [List.mem_cons, List.mem_append, List.not_mem_nil, or_false] at hm
  rcases hm with (rfl | hm | rfl | rfl | rfl) | hm
  · rw [Sql.events_phrase]
    decide
  · exact (events_columns limit offset e hm).1
  · exact Sql.phrase_has (by decide)
  · rw [number_phrase (by decide)]
    exact Sql.clauseless_hole _
  · rw [number_phrase (by decide)]
    exact Sql.clauseless_hole _
  · obtain ⟨t, ht, rfl⟩ := List.mem_map.mp hm
    rw [Sql.row_phrase t ((report_selects (.events limit offset) f bounds).proper t ht)]
    exact Sql.clauseless_row t

theorem events_heading (limit offset : Nat) (ts : List RowTest) :
    ∃ ss, signs? (select (.events limit offset) ts).heading =
      some (.name "event_id" :: .mark ',' :: ss) := by
  obtain ⟨ss, hs⟩ : ∃ ss, Signs (Sql.between Sql.comma
      ((Kind.columns (.events limit offset)).tail.map phrase)) ss := by
    refine listed_signs fun is hi => ?_
    obtain ⟨e, he, rfl⟩ := List.mem_map.mp hi
    exact (events_columns limit offset e (List.mem_of_mem_tail he)).2
  have hi : Signs (phrase "event_id") [.name "event_id"] := by
    rw [Sql.phrase_reads (Sql.reads_word "event_id" (by decide) (by decide))]
    exact Sql.signs_word "event_id"
  have hb : Signs [Sql.blank] [] := Sql.signs_blank rfl
  exact ⟨ss, Sql.signs_append hb (Sql.signs_append (Sql.signs_append hi Sql.comma_signs) hs)⟩

theorem newest_reads :
    Sql.Reads false "timestamp DESC" [Sql.word "timestamp", Sql.blank, Sql.word "DESC"] := by
  have ht : Sql.Reads true "timestamp " [Sql.word "timestamp", Sql.blank] :=
    Sql.reads_constant (by decide) fun _ _ _ => rfl
  exact Sql.reads_append ht (Sql.reads_word "DESC" (by decide) (by decide)) (.inl rfl)

theorem events_clauses (limit offset : Nat) (f : Filter)
    (bounds : Option String × Option String) :
    ∃ ss, Clauses.ofScope? (select (.events limit offset) (f.tests bounds)).scope = some
      ⟨.name "event_id" :: .mark ',' :: ss, some [.name "events", .name "FINAL"],
        some (.all ((f.tests bounds).map fun t => .test (Sql.bare t.items))), none, none,
        some [.name "BY", .name "timestamp", .name "DESC"], some [.value ⟨"limit", .word⟩],
        some [.value ⟨"offset", .word⟩]⟩ := by
  obtain ⟨ss, hh⟩ := events_heading limit offset (f.tests bounds)
  have hs := report_selects (.events limit offset) f bounds
  have ho : Kind.ownTests (.events limit offset) = [] := rfl
  have he := Sql.events_signs
  have hn : f.tests bounds ≠ [] := by simp [Filter.tests]
  have hw := Sql.row_conditions (tests_proper f bounds) hn
  have hk : signs? (Sql.byItems ++ phrase "timestamp DESC") =
      some [.name "BY", .name "timestamp", .name "DESC"] := by
    rw [Sql.phrase_reads newest_reads]
    rfl
  have number {name : String} (h : Sql.Wordlike name) :
      signs? (phrase (⟨name, .word⟩ : Placeholder).render) = some [.value ⟨name, .word⟩] := by
    rw [number_phrase h]
    exact Sql.signs_hole _ h
  have hlimit := number (by decide : Sql.Wordlike "limit")
  have hoffset := number (by decide : Sql.Wordlike "offset")
  have hl : (select (.events limit offset) (f.tests bounds)).clauses =
      [("FROM", phrase Sql.eventsTable), ("WHERE",
          Sql.between (Sql.spaced "AND") (((f.tests bounds).map RowTest.render).map phrase)),
        ("ORDER", Sql.byItems ++ phrase "timestamp DESC"),
        ("LIMIT", phrase (⟨"limit", .word⟩ : Placeholder).render),
        ("OFFSET", phrase (⟨"offset", .word⟩ : Placeholder).render)] := by
    simp [Sql.Select.clauses, select, Sql.Select.of, Sql.clauseIn, Sql.optionIn, Kind.groups,
      Kind.order, Kind.limit?, Kind.offset?, numberPlace, ho, hn, Sql.between]
  refine ⟨ss, ?_⟩
  rw [Sql.select_clauses_read (events_tidy limit offset f bounds) (Sql.selects_closed hs)]
  simp [-List.map_map, Clauses.ofParts?, hl, hh, he, hk, hw, hlimit, hoffset, List.lookup_cons]

theorem page_clauses_read (ss order : List Sql.Sign)
    (φ : Sql.Formula (List Sql.Item)) (limit offset : Placeholder) :
    Page.ofClauses? ⟨.name "event_id" :: .mark ',' :: ss, some [.name "events", .name "FINAL"],
      some φ, none, none, some order, some [.value limit], some [.value offset]⟩ =
      (φ.traverse Sql.rowTestOf?).bind fun condition =>
        (Sql.TimeOrder.ofSigns? order).bind fun order => some ⟨condition, order, limit, offset⟩ :=
  rfl

theorem events_read (limit offset : Nat) (f : Filter) (bounds : Option String × Option String) :
    Page.read (select (.events limit offset) (f.tests bounds)).render = some
      ⟨Sql.allOf (f.tests bounds), .newestFirst, ⟨"limit", .word⟩, ⟨"offset", .word⟩⟩ := by
  obtain ⟨ss, hc⟩ := events_clauses limit offset f bounds
  have hr := Sql.read_reads (Sql.selects_text (report_selects (.events limit offset) f bounds))
  have ht := Sql.rows_traverse (tests_proper f bounds)
  have hs : (Sql.word "SELECT").isWord "SELECT" = true := rfl
  rw [Page.read, hr, Option.bind_some, Sql.Select.items, Page.ofItems?, if_pos hs, hc,
    Option.bind_some, page_clauses_read, ht]
  rfl

theorem report_params {projectId : String} {b : Bindings} {u : Uuid}
    (hb : Bindings.forProject projectId = .ok b) (hu : Uuid.read (Text.trim projectId) = some u)
    (kind : Kind) (f : Filter) (bounds : Option String × Option String) :
    let params := (b.nameAll (values kind f bounds)).params
    params.get? Bindings.projectName = some (.uuid u.render) ∧
      params.Has (values kind f bounds) := by
  obtain ⟨w, hw, rfl⟩ := (project_ok _ _).mp hb
  obtain rfl : u = w := Option.some.inj (hu.symm.trans hw)
  have hs := values_sublist kind f bounds
  have hd := hs.nodup (by decide)
  have hp : Bindings.projectName ∉ (values kind f bounds).map Prod.fst :=
    fun hm => absurd (hs.subset hm) (by decide)
  exact ⟨(named_params u hd _ _).mpr (.inr ⟨rfl, rfl, hp⟩),
    fun e he => (named_params u hd _ _).mpr (.inl he)⟩

theorem events_given {projectId : String} {u : Uuid} {f : Filter}
    {bounds : Option String × Option String}
    (hu : Uuid.read (Text.trim projectId) = some u) (hr : f.range = .ok bounds)
    (limit offset : Nat) : ∃ q p, query projectId (.events limit offset) f = .ok q ∧
      Page.read q.sql = some p ∧ ∀ E rows page, p.Gives E q.params rows page ↔
        ∃ arranged, Sql.TimeOrder.newestFirst.Arranges
          (rows.filter fun r => f.admits E u.render bounds r.toEvent) arranged ∧
            page = (arranged.drop offset).take (clamp Limits.listedEvents limit) := by
  obtain ⟨b, hb⟩ : ∃ b, Bindings.forProject projectId = .ok b :=
    ⟨_, (project_ok _ _).mpr ⟨u, hu, rfl⟩⟩
  obtain ⟨hp, hv⟩ := report_params hb hu (.events limit offset) f bounds
  refine ⟨_, _, (query_ok _ _ _ _).mpr ⟨b, bounds, hb, hr, rfl⟩, events_read limit offset f bounds,
    fun E rows page => ?_⟩
  simp only [values, has_append] at hv
  obtain ⟨⟨hf, hl⟩, ho⟩ := hv
  have hlimit := read_bound (hl ("limit", .word (clamp Limits.listedEvents limit)) (by
    simp [numberValue, Kind.limit?])) Value.word?
  have hoffset := read_bound (ho ("offset", .word offset) (by
    simp [numberValue, Kind.offset?])) Value.word?
  have hfound : Page.found ⟨Sql.allOf (f.tests bounds), .newestFirst, ⟨"limit", .word⟩,
      ⟨"offset", .word⟩⟩ E (b.nameAll (values (.events limit offset) f bounds)).params rows =
        rows.filter fun r => f.admits E u.render bounds r.toEvent := by
    refine List.filter_congr fun r _ => ?_
    rw [Bool.eq_iff_iff, decide_eq_true_eq, Sql.all_of_true]
    exact Filter.tests_truth (read_bound hp Value.uuid?) hf r.toEvent
  constructor
  · rintro ⟨l, o, arranged, h₁, h₂, ha, rfl⟩
    obtain rfl := Option.some.inj (hlimit.symm.trans h₁)
    obtain rfl := Option.some.inj (hoffset.symm.trans h₂)
    exact ⟨arranged, hfound ▸ ha, rfl⟩
  · rintro ⟨arranged, ha, rfl⟩
    exact ⟨_, _, arranged, hlimit, hoffset, hfound.symm ▸ ha, rfl⟩

end Report

end CohortQuery
