import CohortQuery.Proofs.Closed
import CohortQuery.Proofs.Isolation
import CohortQuery.Proofs.Store.Conversation
import CohortQuery.Proofs.Store.Wire
import CohortQuery.Store.Operation

/-!
# What is sent

An operation sends nothing if its statements do not compile. Otherwise it sends them as they were
compiled, since none of them has a question mark in it that the client would take for a value.
-/

set_option autoImplicit false

namespace CohortQuery

open Sql (Predicate RowTest Select Selects)

theorem select_verbatim {q : Select} {ts : List RowTest} (h : Selects q ts)
    (hs : ∀ e ∈ q.surroundings, Verbatim e) : Verbatim q.render := by
  refine verbatim_select hs ?_
  rw [h.conditions]
  exact verbatim_rows h.proper

theorem listing_verbatim {p : Predicate} (h : p.Proper) : Verbatim (listingSelect p).render := by
  have hd : Verbatim "distinct_id" := Sql.lacks_chars _ (by decide)
  refine verbatim_select ?_ ?_
  · intro e he
    have hs : (listingSelect p).surroundings =
        [Sql.eventsTable, "distinct_id", Sql.resolvedPersonColumn, "distinct_id"] := rfl
    simp only [hs, List.mem_cons, List.not_mem_nil, or_false] at he
    rcases he with rfl | rfl | rfl | rfl
    · exact Sql.lacks_chars _ (by decide)
    · exact hd
    · exact resolved_column_lacks (.inl rfl)
    · exact hd
  · intro e he
    have ho : Verbatim "(" := Sql.lacks_chars _ (by decide)
    have hc : Verbatim ")" := Sql.lacks_chars _ (by decide)
    have hr : RowTest.inProject.Proper := trivial
    rw [listing_restricted, restricted_conditions, listing_open.conditions] at he
    simp only [List.nil_append, List.mem_cons, List.not_mem_nil, or_false] at he
    rcases he with rfl | rfl
    · exact verbatim_row hr
    · exact ho.append (verbatim_predicate h) |>.append hc

theorem report_verbatim (kind : Report.Kind) (f : Report.Filter)
    (bounds : Option String × Option String) :
    Verbatim (Report.select kind (f.tests bounds)).render := by
  refine select_verbatim (Report.report_selects kind f bounds) ?_
  have number {name : String} {n : Option Nat} (h : Sql.Wordlike name) :
      ∀ e ∈ ((Report.numberPlace name n).map Placeholder.render).toList, Verbatim e := by
    intro e he
    cases n with
    | none => simp [Report.numberPlace] at he
    | some n =>
      obtain rfl : e = (⟨name, .word⟩ : Placeholder).render := by
        simpa [Report.numberPlace] using he
      exact verbatim_placeholder h
  intro e he
  have hs : (Report.select kind (f.tests bounds)).surroundings = Sql.eventsTable ::
      (kind.columns ++ kind.groups ++ [] ++ kind.order ++
        ((Report.numberPlace "limit" kind.limit?).map Placeholder.render).toList ++
        ((Report.numberPlace "offset" kind.offset?).map Placeholder.render).toList) := rfl
  rw [hs, List.append_nil] at he
  rcases List.mem_cons.mp he with rfl | he
  · exact Sql.lacks_chars _ (by decide)
  · rcases List.mem_append.mp he with he | he
    · rcases List.mem_append.mp he with he | he
      · exact Report.kind_lacks (.inl rfl) kind e he
      · exact number (by decide) e he
    · exact number (by decide) e he

theorem discovery_verbatim : Verbatim Discovery.select.render := by
  refine select_verbatim Discovery.selects ?_
  have hl : (⟨"limit", .word⟩ : Placeholder).Proper := by decide
  intro e he
  have hs : Discovery.select.surroundings = [Sql.eventsTable, Discovery.namesColumn, "property",
      (⟨"limit", .word⟩ : Placeholder).render] := rfl
  simp only [hs, List.mem_cons, List.not_mem_nil, or_false] at he
  rcases he with rfl | rfl | rfl | rfl
  · exact Sql.lacks_chars _ (by decide)
  · exact names_column_lacks (.inl rfl)
  · exact Sql.lacks_chars _ (by decide)
  · exact verbatim_placeholder hl

theorem statement_verbatim (projectId : String) :
    (∀ b q, Context projectId b → CohortStatement b q → Verbatim q.sql) ∧
      ∀ q, ProjectStatement projectId q → Verbatim q.sql := by
  constructor
  · intro b q hb hq
    cases hq with
    | listing h =>
      obtain ⟨p, c, hy, rfl⟩ := (listing_ok _ _ _ _).mp h
      exact listing_verbatim (compiled_project hb hy).1
    | clear h =>
      obtain ⟨_, p, c, _, rfl⟩ := (materialization_ok _ _ _ _ _).mp h
      exact verbatim_clear
    | insert h =>
      obtain ⟨_, p, c, hy, rfl⟩ := (materialization_ok _ _ _ _ _).mp h
      exact verbatim_insert (compiled_project hb hy).1
    | count h =>
      obtain ⟨_, p, c, _, rfl⟩ := (materialization_ok _ _ _ _ _).mp h
      exact verbatim_count
  · intro q hq
    cases hq with
    | @report kind filter _ h =>
      obtain ⟨b, bounds, _, _, rfl⟩ := (Report.query_ok _ _ _ _).mp h
      exact report_verbatim kind filter bounds
    | discovery h =>
      obtain ⟨b, _, _, rfl⟩ := (Discovery.query_ok _ _ _ _).mp h
      exact discovery_verbatim

namespace Store

def Step.request (s : Step) : Request :=
  ⟨s.query.sql, s.query.params, s.fetches⟩

/-- Played from some replies, the operation sends nothing if its statements do not compile. Else
it sends these, from the first one on, and none behind one that did not go well; it succeeds just
if all of them go well. -/
structure Sent {α : Type} (otherwise : Reply) (replies : List Reply)
    (plan : Except CompileError (List Step)) (x : Operation α) : Prop where
  refused (e : CompileError) (h : plan = .error e) :
    (x.run.play otherwise replies).value = .error (.compile e) ∧
      (x.run.play otherwise replies).requests = []
  verbatim (steps : List Step) (h : plan = .ok steps) : ∀ s ∈ steps, '?' ∉ s.query.sql.toList
  requests (steps : List Step) (h : plan = .ok steps) :
    (x.run.play otherwise replies).requests <+: steps.map Step.request
  stops (steps : List Step) (h : plan = .ok steps) (i : Nat) (s : Step)
    (hi : i + 1 < (x.run.play otherwise replies).requests.length) (hs : steps[i]? = some s) :
    s.good (replies[i]?.getD otherwise)
  succeeds (steps : List Step) (h : plan = .ok steps) :
    (∃ a, (x.run.play otherwise replies).value = .ok a) ↔
      ∀ (i : Nat) (s : Step), steps[i]? = some s → s.good (replies[i]?.getD otherwise)

section

variable {α : Type}

theorem sends_verbatim {s : Step} (hv : Verbatim s.query.sql) {r : Request} (h : s.Sends r) :
    r = s.request := by
  obtain ⟨ht, hp, hf⟩ := h
  rw [expand_verbatim hv, Except.ok.injEq] at ht
  cases r
  simp_all [Step.request]

theorem follows_requests {steps : List Step} {ts : List Turn}
    (hv : ∀ s ∈ steps, Verbatim s.query.sql) (h : Follows steps ts) :
    ts.map Turn.request <+: steps.map Step.request := by
  induction h with
  | nil => exact List.nil_prefix
  | last plan h =>
    obtain ⟨hs, _⟩ := List.forall_mem_cons.mp hv
    rw [List.map_cons, List.map_cons, sends_verbatim hs h]
    exact List.prefix_cons_inj _ |>.mpr List.nil_prefix
  | next h _ ih =>
    obtain ⟨hs, hv⟩ := List.forall_mem_cons.mp hv
    rw [List.map_cons, List.map_cons, sends_verbatim hs h.sends]
    exact List.prefix_cons_inj _ |>.mpr (ih hv)

theorem passes_requests {steps : List Step} {ts : List Turn}
    (hv : ∀ s ∈ steps, Verbatim s.query.sql) (h : List.Forall₂ Step.Passes steps ts) :
    ts.map Turn.request = steps.map Step.request := by
  induction h with
  | nil => rfl
  | cons h _ ih =>
    obtain ⟨hs, hv⟩ := List.forall_mem_cons.mp hv
    rw [List.map_cons, List.map_cons, sends_verbatim hs h.sends, ih hv]

theorem follows_good {steps : List Step} {ts : List Turn} (h : Follows steps ts) (i : Nat)
    (s : Step) (t : Turn) (hi : i + 1 < ts.length) (hs : steps[i]? = some s)
    (ht : ts[i]? = some t) : s.good t.reply := by
  induction h generalizing i with
  | nil => cases hi
  | last => simp at hi
  | next h _ ih =>
    cases i with
    | zero =>
      obtain rfl := Option.some.inj hs
      obtain rfl := Option.some.inj ht
      exact h.good
    | succ i => exact ih i (by simpa using hi) hs ht

theorem passes_good {steps : List Step} {ts : List Turn} (h : List.Forall₂ Step.Passes steps ts)
    (i : Nat) (s : Step) (hs : steps[i]? = some s) : ∃ t, ts[i]? = some t ∧ s.good t.reply := by
  induction h generalizing i with
  | nil => cases hs
  | cons h _ ih =>
    cases i with
    | zero =>
      obtain rfl := Option.some.inj hs
      exact ⟨_, rfl, h.good⟩
    | succ i => exact ih i hs

theorem abandoned_split {steps : List Step} {ts : List Turn}
    (hv : ∀ s ∈ steps, Verbatim s.query.sql) (h : Abandoned steps ts) :
    ∃ before s rest passed t, steps = before ++ s :: rest ∧ ts = passed ++ [t] ∧
      List.Forall₂ Step.Passes before passed ∧ s.Sends t.request ∧ ¬s.good t.reply := by
  induction h with
  | refused plan h =>
    obtain ⟨hs, _⟩ := List.forall_mem_cons.mp hv
    rw [expand_verbatim hs] at h
    cases h
  | last plan hs hg => exact ⟨[], _, plan, [], _, rfl, rfl, .nil, hs, hg⟩
  | next hp _ ih =>
    obtain ⟨before, s, rest, passed, t, rfl, rfl, hb, hs, hg⟩ := ih (List.forall_mem_cons.mp hv).2
    exact ⟨_ :: before, s, rest, _ :: passed, t, rfl, rfl, .cons hp hb, hs, hg⟩

theorem abandoned_bad {steps : List Step} {ts : List Turn}
    (hv : ∀ s ∈ steps, Verbatim s.query.sql) (h : Abandoned steps ts) :
    ∃ (i : Nat) (s : Step) (t : Turn), steps[i]? = some s ∧ ts[i]? = some t ∧ ¬s.good t.reply := by
  obtain ⟨before, s, rest, passed, t, rfl, rfl, hb, _, hg⟩ := abandoned_split hv h
  refine ⟨before.length, s, t, ?_, ?_, hg⟩
  · simp
  · simp [hb.length_eq]

/-- Played from some replies, all steps of a serial operation pass, or it fails behind one whose
reply is not good. -/
theorem serial_plays (otherwise : Reply) (replies : List Reply) {steps : List Step}
    {x : Operation α} (hv : ∀ s ∈ steps, Verbatim s.query.sql) (h : Serial steps x) : ∃ ts,
      (∀ (i : Nat) (t : Turn), ts[i]? = some t → t.reply = replies[i]?.getD otherwise) ∧
      ((∃ a, x.run.Talks ts (some (.ok a))) ∧ List.Forall₂ Step.Passes steps ts ∨
        (∃ e, x.run.Talks ts (some (.error e))) ∧ ∃ before s rest passed t,
          steps = before ++ s :: rest ∧ ts = passed ++ [t] ∧
          List.Forall₂ Step.Passes before passed ∧ s.Sends t.request ∧ ¬s.good t.reply) := by
  obtain ⟨ts, ht, _, hi⟩ := Exchange.play_talks otherwise x.run replies
  refine ⟨ts, hi, ?_⟩
  generalize (x.run.play otherwise replies).value = r at ht
  cases r with
  | ok a => exact .inl ⟨⟨a, ht⟩, h.passes ht⟩
  | error e => exact .inr ⟨⟨e, ht⟩, abandoned_split hv (h.abandoned ht)⟩

theorem serial_complete (otherwise : Reply) (replies : List Reply) {steps : List Step}
    {x : Operation α} (hv : ∀ s ∈ steps, Verbatim s.query.sql) (h : Serial steps x) {a : α}
    (ha : (x.run.play otherwise replies).value = .ok a) :
    (x.run.play otherwise replies).requests = steps.map Step.request := by
  obtain ⟨ts, ht, hr, _⟩ := Exchange.play_talks otherwise x.run replies
  rw [← hr]
  exact passes_requests hv (h.passes (ha ▸ ht))

theorem serial_sent (otherwise : Reply) (replies : List Reply) {steps : List Step}
    {x : Operation α} (hv : ∀ s ∈ steps, Verbatim s.query.sql) (h : Serial steps x) :
    Sent otherwise replies (.ok steps) x := by
  obtain ⟨ts, ht, hr, hi⟩ := Exchange.play_talks otherwise x.run replies
  have hf := h.follows ht
  refine ⟨by simp, ?_, ?_, ?_, ?_⟩
  · intro _ he
    obtain rfl := Except.ok.inj he
    exact hv
  · intro _ he
    obtain rfl := Except.ok.inj he
    rw [← hr]
    exact follows_requests hv hf
  · intro _ he i s hl hs
    obtain rfl := Except.ok.inj he
    rw [← hr, List.length_map] at hl
    have hg := List.getElem?_eq_getElem (Nat.lt_of_succ_lt hl)
    rw [← hi i _ hg]
    exact follows_good hf i s _ hl hs hg
  · intro _ he
    obtain rfl := Except.ok.inj he
    constructor
    · rintro ⟨a, ha⟩ i s hs
      obtain ⟨t, hg, hp⟩ := passes_good (h.passes (ha ▸ ht)) i s hs
      rwa [hi i t hg] at hp
    · intro hg
      cases hw : (x.run.play otherwise replies).value with
      | ok a => exact ⟨a, rfl⟩
      | error e =>
        obtain ⟨i, s, t, hs, hg', hb⟩ := abandoned_bad hv (h.abandoned (hw ▸ ht))
        rw [hi i t hg'] at hb
        exact absurd (hg i s hs) hb

theorem compile_serial {β : Type} {c : Except CompileError α} {plan : List Step}
    {f : α → Operation β} {a : α} (hc : c = .ok a) (hf : Serial plan (f a)) :
    Serial plan (do f (← Operation.compile c)) := by
  subst hc
  exact hf

theorem compile_sent (otherwise : Reply) (replies : List Reply) {β : Type}
    {c : Except CompileError α} {plan : α → List Step} {f : α → Operation β}
    (hv : ∀ a, c = .ok a → ∀ s ∈ plan a, Verbatim s.query.sql)
    (hf : ∀ a, c = .ok a → Serial (plan a) (do f (← Operation.compile c))) :
    Sent otherwise replies (c.map plan) (do f (← Operation.compile c)) := by
  cases c with
  | error e =>
    refine ⟨?_, ?_, ?_, ?_, ?_⟩
    · intro _ he
      cases he
      exact ⟨rfl, rfl⟩
    all_goals
      intro _ he
      cases he
  | ok a => exact serial_sent otherwise replies (hv a rfl) (hf a rfl)

theorem serial_notes (es : List Log.Entry) : Serial [] (noteAll es) := by
  induction es with
  | nil => exact serial_pure ()
  | cons e es ih => exact serial_quiet (serial_note e) fun _ => ih

theorem query_sent (otherwise : Reply) (replies : List Reply) {c : Except CompileError Query}
    {step : Query → Step} {f : Query → Operation α} (hc : ∀ q, c = .ok q → Verbatim q.sql)
    (hs : ∀ q, (step q).query = q) (hf : ∀ q, Serial [step q] (f q)) :
    Sent otherwise replies (c.map fun q => [step q]) (do f (← Operation.compile c)) := by
  refine compile_sent otherwise replies (fun q hq s hm => ?_) fun q hq => compile_serial hq (hf q)
  obtain rfl := List.mem_singleton.mp hm
  rw [hs]
  exact hc q hq

end

section

variable (r : CohortRequest) (seconds limit : Nat) (cohort : String)

def Step.listing (q : Query) : List Step :=
  if limit = 0 then [] else [(Step.first Table.members? q limit).within seconds]

def Step.storing (m : Materialization) : List Step :=
  [(Step.execute m.clear).within seconds, (Step.execute m.insert).within seconds,
    (Step.one Table.numbers? m.count).within seconds]

theorem storing_split {seconds : Nat} {m : Materialization} {before rest : List Step} {s : Step}
    (h : Step.storing seconds m = before ++ s :: rest) :
    before = [] ∧ s = (Step.execute m.clear).within seconds ∧ rest.length = 2 ∨
      before = [(Step.execute m.clear).within seconds] ∧
        s = (Step.execute m.insert).within seconds ∧ rest.length = 1 ∨
      before = [(Step.execute m.clear).within seconds, (Step.execute m.insert).within seconds] ∧
        s = (Step.one Table.numbers? m.count).within seconds ∧ rest.length = 0 := by
  match before, h with
  | [], h =>
    obtain ⟨rfl, rfl⟩ := List.cons.inj h
    exact .inl ⟨rfl, rfl, rfl⟩
  | [_], h =>
    obtain ⟨rfl, h₂⟩ := List.cons.inj h
    obtain ⟨rfl, rfl⟩ := List.cons.inj h₂
    exact .inr (.inl ⟨rfl, rfl, rfl⟩)
  | [_, _], h =>
    obtain ⟨rfl, h₂⟩ := List.cons.inj h
    obtain ⟨rfl, h₃⟩ := List.cons.inj h₂
    obtain ⟨rfl, rfl⟩ := List.cons.inj h₃
    exact .inr (.inr ⟨rfl, rfl, rfl⟩)
  | _ :: _ :: _ :: before, h =>
    have hl := congrArg List.length h
    simp only [Step.storing, List.length_append, List.length_cons, List.length_nil] at hl
    omega

variable {r}

theorem listing_steps_verbatim {q : Query} (hq : r.listing = .ok q) :
    ∀ s ∈ Step.listing seconds limit q, Verbatim s.query.sql := by
  intro s hs
  obtain ⟨b, hb, hq⟩ := (Binder.except_bind _ _ _).mp hq
  have hv := (statement_verbatim r.projectId).1 b q (start_context hb) (.listing hq)
  unfold Step.listing at hs
  split at hs
  next => cases hs
  next =>
    obtain rfl := List.mem_singleton.mp hs
    exact hv

theorem storing_steps_verbatim {m : Materialization} (hm : r.materialization cohort = .ok m) :
    ∀ s ∈ Step.storing seconds m, Verbatim s.query.sql := by
  intro s hs
  obtain ⟨b, hb, hm⟩ := (Binder.except_bind _ _ _).mp hm
  have hv := fun q => (statement_verbatim r.projectId).1 b q (start_context hb)
  simp only [Step.storing, List.mem_cons, List.not_mem_nil, or_false] at hs
  rcases hs with rfl | rfl | rfl
  · exact hv _ (.clear hm)
  · exact hv _ (.insert hm)
  · exact hv _ (.count hm)

theorem members_serial {q : Query} (hq : r.listing = .ok q) :
    Serial (Step.listing seconds limit q) (members seconds r limit) := by
  have truncated (found : List Member) : Serial [] (do
      if found.length = limit then
        Operation.note
          (Log.debug "Cohort member listing truncated" [("limit", Text.numeral limit)])
      return found : Operation (List Member)) := by
    split
    next => exact serial_quiet (serial_note _) fun _ => serial_pure found
    next => exact serial_pure found
  refine compile_serial hq (quiet_serial (serial_note _) fun _ => ?_)
  unfold Step.listing
  by_cases hl : limit = 0
  · rw [if_pos hl, if_pos hl]
    exact serial_quiet (serial_pure []) truncated
  · rw [if_neg hl, if_neg hl]
    have rows := serial_within (serial_fetch_first Table.members? q hl) seconds
    exact serial_quiet rows truncated

theorem materialize_serial {m : Materialization} (hm : r.materialization cohort = .ok m) :
    Serial (Step.storing seconds m) (materialize seconds r cohort) := by
  have execute (q : Query) := serial_within (serial_execute q) seconds
  have count := serial_within (serial_fetch_one Table.numbers? m.count) seconds
  exact compile_serial hm (serial_bind (execute m.clear) fun _ =>
    serial_bind (execute m.insert) fun _ => serial_quiet count fun _ =>
      serial_quiet (serial_note _) fun _ => serial_pure _)

end

/-- Every operation sends what it compiles, and the requests carry it as it is: their text is that
of the statement, and its values are read back from what stands beside it. -/
theorem operations_sent (otherwise : Reply) (replies : List Reply) (seconds : Nat) :
    (∀ projectId filter limit offset, Sent otherwise replies
      ((Report.query projectId (.events limit offset) filter).map fun q =>
        [(Step.all Table.events? q).within seconds])
      (events seconds projectId filter limit offset)) ∧
    (∀ projectId filter, Sent otherwise replies
      ((Report.query projectId .totals filter).map fun q =>
        [(Step.one Table.totals? q).within seconds])
      (totals seconds projectId filter)) ∧
    (∀ projectId filter granularity, Sent otherwise replies
      ((Report.query projectId (.trend granularity) filter).map fun q =>
        [(Step.all Table.trend? q).within seconds])
      (trend seconds projectId filter granularity)) ∧
    (∀ projectId filter limit, Sent otherwise replies
      ((Report.query projectId (.top limit) filter).map fun q =>
        [(Step.all Table.top? q).within seconds])
      (top seconds projectId filter limit)) ∧
    (∀ projectId, Sent otherwise replies
      ((Discovery.query projectId Limits.discoveryDays Limits.discoveredNames).map fun q =>
        [(Step.all Table.names? q).within seconds])
      (properties seconds projectId)) ∧
    (∀ (r : CohortRequest) limit, Sent otherwise replies
      (r.listing.map fun q =>
        if limit = 0 then [] else [(Step.first Table.members? q limit).within seconds])
      (members seconds r limit)) ∧
    (∀ (r : CohortRequest) cohort, Sent otherwise replies
      ((r.materialization cohort).map fun m =>
        [(Step.execute m.clear).within seconds, (Step.execute m.insert).within seconds,
          (Step.one Table.numbers? m.count).within seconds])
      (materialize seconds r cohort)) ∧
    ∀ (settings : Settings.Store) (s : Step), (∀ p ∈ s.query.params, p.2.Proper) →
      (s.request.onWire settings).Carries s.query := by
  have all {α : Type} (kind : Table → Option (List α)) (q : Query) :=
    serial_within (serial_fetch_all kind q) seconds
  have report {projectId : String} {kind : Report.Kind} {filter : Report.Filter} (q : Query)
      (hq : Report.query projectId kind filter = .ok q) : Verbatim q.sql :=
    (statement_verbatim projectId).2 q (.report hq)
  refine ⟨?_, ?_, ?_, ?_, ?_, ?_, ?_, fun settings s => request_carries settings s.request⟩
  · intro projectId filter limit offset
    refine query_sent otherwise replies report (fun _ => rfl) fun q => ?_
    exact serial_quiet (all _ q) fun _ => serial_quiet (serial_note _) fun _ => serial_pure _
  · intro projectId filter
    refine query_sent otherwise replies report (fun _ => rfl) fun q => ?_
    exact serial_within (serial_fetch_one _ q) seconds
  · intro projectId filter granularity
    exact query_sent otherwise replies report (fun _ => rfl) fun q => all _ q
  · intro projectId filter limit
    exact query_sent otherwise replies report (fun _ => rfl) fun q => all _ q
  · intro projectId
    refine query_sent otherwise replies (fun q hq => ?_) (fun _ => rfl) fun q => ?_
    · exact (statement_verbatim projectId).2 q (.discovery hq)
    · exact serial_quiet (all _ q) fun names => serial_quiet (serial_note _) fun _ =>
        serial_quiet (serial_notes (refusals names)) fun _ => serial_pure _
  · exact fun r limit => compile_sent otherwise replies
      (fun _ hq => listing_steps_verbatim seconds limit hq)
      fun _ hq => members_serial seconds limit hq
  · exact fun r cohort => compile_sent otherwise replies
      (fun _ hm => storing_steps_verbatim seconds cohort hm)
      fun _ hm => materialize_serial seconds cohort hm

def thriftyRequest : CohortRequest where
  projectId := "6f1c2b8e-3d4a-4e5f-8a9b-0c1d2e3f4a5b"
  definition := ⟨.and, [.leaf (.person ⟨"price", .ordered .below, some (.text "0.1")⟩),
    .leaf (.person ⟨"plan", .equals false, some (.text "it's?")⟩)]⟩
  dateTo := none
  allowed := .ofNames ["price", "plan"]

def analyticsStore : Settings.Store where
  url := "http://localhost:8123"
  database := "analytics"
  user := none
  password := none
  timeoutSecs := 30
  compression := true

def thriftyParams : Params :=
  [("coh_prop_0", .real (.finite false 7205759403792794 (-56))), ("coh_prop_1", .text "it's?"),
    ("project_id", .uuid "6f1c2b8e-3d4a-4e5f-8a9b-0c1d2e3f4a5b")]

theorem thrifty_sent : ∃ q : Query, thriftyRequest.listing = .ok q ∧
    (∀ p ∈ q.params, p.2.Proper) ∧
    ((members 30 thriftyRequest 10).run.play .silence []).requests <+: [⟨q.sql, q.params, true⟩] ∧
    (Request.onWire analyticsStore ⟨q.sql, q.params, true⟩).options =
      [("compress", "1"), ("database", "analytics"),
        ("default_format", "RowBinaryWithNamesAndTypes"),
        ("do_not_merge_across_partitions_select_final", "1"), ("param_coh_prop_0", "0.1"),
        ("param_coh_prop_1", "it\\'s?"),
        ("param_project_id", "6f1c2b8e-3d4a-4e5f-8a9b-0c1d2e3f4a5b")] ∧
    (Request.onWire analyticsStore ⟨q.sql, q.params, true⟩).Carries q := by
  have start : Bindings.start thriftyRequest.projectId thriftyRequest.dateTo =
      .ok ⟨[("project_id", .uuid "6f1c2b8e-3d4a-4e5f-8a9b-0c1d2e3f4a5b")], 0, none⟩ :=
    grouped_start rfl
  have hk : thriftyRequest.listing.toOption.map Query.params = some thriftyParams := by
    rw [CohortRequest.listing, start]
    decide +kernel
  obtain ⟨q, hq⟩ : ∃ q, thriftyRequest.listing = .ok q := by
    cases h : thriftyRequest.listing with
    | error e =>
      rw [h] at hk
      cases hk
    | ok q => exact ⟨q, rfl⟩
  have hp : q.params = thriftyParams := by
    rw [hq] at hk
    exact Option.some.inj hk
  have proper : ∀ p ∈ q.params, p.2.Proper := by
    have tenth : (Value.real (.finite false 7205759403792794 (-56))).Proper :=
      ⟨⟨by norm_num, by norm_num, by norm_num⟩, by norm_num⟩
    rw [hp]
    exact List.forall_mem_cons.mpr ⟨tenth, by simp [Value.Proper]⟩
  obtain ⟨-, -, -, -, -, listed, -, carried⟩ := operations_sent .silence [] 30
  have sent := (listed thriftyRequest 10).requests _ (congrArg (Except.map _) hq)
  have options : (Request.onWire analyticsStore ⟨"", thriftyParams, true⟩).options =
      [("compress", "1"), ("database", "analytics"),
        ("default_format", "RowBinaryWithNamesAndTypes"),
        ("do_not_merge_across_partitions_select_final", "1"), ("param_coh_prop_0", "0.1"),
        ("param_coh_prop_1", "it\\'s?"),
        ("param_project_id", "6f1c2b8e-3d4a-4e5f-8a9b-0c1d2e3f4a5b")] := by
    decide +kernel
  refine ⟨q, hq, proper, sent, ?_, carried analyticsStore (Step.first Table.members? q 10) proper⟩
  rw [hp]
  exact options
end Store

end CohortQuery
