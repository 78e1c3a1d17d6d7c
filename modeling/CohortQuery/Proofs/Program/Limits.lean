import CohortQuery.Proofs.Program.Preview
import CohortQuery.Proofs.Report.Paging
import CohortQuery.Proofs.Report.Shared
import CohortQuery.Proofs.Settings.Layers

/-!
# Limits of reports

The settings bring the number of rows that is asked for into a range, and the statement brings it
into a range of its own. Checked settings have the narrower range, so the statement and its request
carry the number that the settings made of it.
-/

set_option autoImplicit false

namespace CohortQuery

open Report (Filter clamp)
open Settings (Effective clamp?)

namespace Report

variable {most : Nat}

theorem clamp_range (h : 1 ≤ most) (n : Nat) : 1 ≤ clamp most n ∧ clamp most n ≤ most := by
  unfold clamp
  omega

theorem clamp_monotone {n m : Nat} (h : n ≤ m) : clamp most n ≤ clamp most m := by
  unfold clamp
  omega

end Report

theorem Settings.clamp_given {most : Nat} (h : 1 ≤ most) (n : Nat) :
    clamp? most n = some (clamp most n) :=
  if_neg (by omega)

/-- What becomes of the number of rows that is asked for: it is brought between one and `most`, or
is `usual` if none is asked for, and the statements of a kind bind it as it then is. -/
structure Limiting (rows : Option Nat → Option Nat) (usual most : Nat)
    (kind : Nat → Nat → Report.Kind) : Prop where
  given (requested : Option Nat) : ∃ n, rows requested = some n ∧ 1 ≤ n ∧ n ≤ most
  unasked : rows none = some usual
  kept (n : Nat) (h : 1 ≤ n) (hm : n ≤ most) : rows (some n) = some n
  monotone (n m a b : Nat) (h : n ≤ m) (ha : rows (some n) = some a) (hb : rows (some m) = some b) :
    a ≤ b
  /-- A report is refused whatever its kind and its numbers are, or binds the limit. -/
  bound (requested : Option Nat) (n : Nat) (hn : rows requested = some n) (projectId : String)
    (filter : Filter) (offset : Nat) :
    (∃ e, ∀ kind, Report.query projectId kind filter = .error e) ∨
      ∃ q, Report.query projectId (kind n offset) filter = .ok q ∧
        q.params.get? "limit" = some (.word n)

theorem Report.limit_bound {projectId : String} {kind : Report.Kind} {filter : Filter} {q : Query}
    {n : Nat} (hq : query projectId kind filter = .ok q) (hl : kind.limit? = some n) :
    q.params.get? "limit" = some (.word n) := by
  obtain ⟨b, bounds, hb, -, rfl⟩ := (query_ok _ _ _ _).mp hq
  obtain ⟨u, hu, -⟩ := (project_ok _ _).mp hb
  refine (report_params hb hu kind filter bounds).2 ("limit", .word n) ?_
  simp [values, numberValue, hl]

theorem Report.refused_alike (projectId : String) (filter : Filter) :
    (∃ e, ∀ kind, query projectId kind filter = .error e) ∨
      ∀ kind, ∃ q, query projectId kind filter = .ok q := by
  refine (query_cases projectId filter).imp_right ?_
  rintro ⟨u, bounds, hu, hr⟩ kind
  exact (query_given hu kind hr).imp fun _ => And.left

theorem limiting {most usual widest : Nat} {rows : Option Nat → Option Nat}
    {kind : Nat → Nat → Report.Kind} (hr : ∀ o, rows o = clamp? most (o.getD usual))
    (hu : 1 ≤ usual ∧ usual ≤ most) (hw : most ≤ widest)
    (hk : ∀ n offset, (kind n offset).limit? = some (clamp widest n)) :
    Limiting rows usual most kind := by
  have hm : 1 ≤ most := hu.1.trans hu.2
  have rows_clamp (o : Option Nat) : rows o = some (clamp most (o.getD usual)) :=
    (hr o).trans (Settings.clamp_given hm _)
  refine ⟨fun o => ⟨_, rows_clamp o, Report.clamp_range hm _⟩, ?_, fun n h hn => ?_, ?_, ?_⟩
  · rw [rows_clamp, Option.getD_none, Report.clamp_within hu.1 hu.2]
  · rw [rows_clamp, Option.getD_some, Report.clamp_within h hn]
  · intro n m a b h ha hb
    obtain rfl := Option.some.inj ((rows_clamp _).symm.trans ha)
    obtain rfl := Option.some.inj ((rows_clamp _).symm.trans hb)
    exact Report.clamp_monotone h
  · intro o n hn projectId filter offset
    obtain rfl := Option.some.inj ((rows_clamp o).symm.trans hn)
    obtain ⟨hl, hh⟩ := Report.clamp_range hm (o.getD usual)
    refine (Report.refused_alike projectId filter).imp_right fun given => ?_
    obtain ⟨q, hq⟩ := given (kind (clamp most (o.getD usual)) offset)
    refine ⟨q, hq, Report.limit_bound hq ?_⟩
    rw [hk, Report.clamp_within hl (hh.trans hw)]

namespace Program

open Store (Exchange Operation Reply Step)

theorem stored_requests {α β : Type} (g : α → β) (op : Operation α) (otherwise : Reply)
    (replies : List Reply) :
    ((do return g (← Work.ofStore op) : Work β).run.play otherwise replies).requests =
      (op.run.play otherwise replies).requests := by
  rw [mapped_run]
  exact (Exchange.play_map _ _ _ _).2.trans (Exchange.play_map _ _ _ _).2

theorem sent_params {α : Type} {c : Except CompileError Query} {step : Query → Step}
    {op : Operation α} {otherwise : Reply} {replies : List Reply} (hs : ∀ q, (step q).query = q)
    (h : Store.Sent otherwise replies (c.map fun q => [step q]) op) {r : Store.Request}
    (hr : r ∈ (op.run.play otherwise replies).requests) : ∃ q, c = .ok q ∧ r.params = q.params := by
  cases c with
  | error e =>
    rw [(h.refused e rfl).2] at hr
    cases hr
  | ok q =>
    obtain rfl := List.mem_singleton.mp ((h.requests _ rfl).subset hr)
    exact ⟨q, rfl, congrArg Query.params (hs q)⟩

section

variable (otherwise : Reply) (replies : List Reply) {seconds : Nat} {projectId : String}
  {filter : Filter} {limit : Nat} {r : Store.Request}

theorem events_limited {offset : Nat} (h : clamp Limits.listedEvents limit = limit)
    (hr : r ∈ ((Store.events seconds projectId filter limit offset).run.play otherwise
      replies).requests) : r.params.get? "limit" = some (.word limit) := by
  have sent : Store.Sent otherwise replies
      ((Report.query projectId (.events limit offset) filter).map fun q =>
        [(Step.all Store.Table.events? q).within seconds])
      (Store.events seconds projectId filter limit offset) := by
    refine Store.query_sent otherwise replies ?_ (fun _ => rfl) fun q => ?_
    · exact fun q hq => (statement_verbatim projectId).2 q (.report hq)
    · refine Store.serial_quiet (Store.serial_within (Store.serial_fetch_all _ q) seconds)
        fun rows => ?_
      exact Store.serial_quiet (Store.serial_note _) fun _ => Store.serial_pure rows
  obtain ⟨q, hq, hp⟩ := sent_params (fun _ => rfl) sent hr
  rw [hp]
  exact Report.limit_bound hq (congrArg some h)

theorem top_limited (h : clamp Limits.topEvents limit = limit)
    (hr : r ∈ ((Store.top seconds projectId filter limit).run.play otherwise replies).requests) :
    r.params.get? "limit" = some (.word limit) := by
  have sent : Store.Sent otherwise replies
      ((Report.query projectId (.top limit) filter).map fun q =>
        [(Step.all Store.Table.top? q).within seconds])
      (Store.top seconds projectId filter limit) := by
    refine Store.query_sent otherwise replies ?_ (fun _ => rfl) fun q => ?_
    · exact fun q hq => (statement_verbatim projectId).2 q (.report hq)
    · exact Store.serial_within (Store.serial_fetch_all _ q) seconds
  obtain ⟨q, hq, hp⟩ := sent_params (fun _ => rfl) sent hr
  rw [hp]
  exact Report.limit_bound hq (congrArg some h)

end

end Program

section

variable {e : Effective} (he : e.Sound)

include he

theorem Settings.events_limiting :
    Limiting e.query.eventsLimit e.query.defaultLimit e.query.maxLimit .events :=
  limiting (fun _ => rfl) he.defaultLimit he.maxLimit.2 fun _ _ => rfl

theorem Settings.top_limiting :
    Limiting e.query.topEventsLimit e.query.topLimit 100 fun n _ => .top n :=
  limiting (fun _ => rfl) he.topLimit (le_refl Limits.topEvents) fun _ _ => rfl

end

namespace Program

open CommandLine (Command)
open Store (Reply)

/-- Under checked settings every number that is asked for is brought into the range of the settings.
The statements of the events and of the most frequent ones bind what comes out, and so do the
requests that the two commands send. -/
theorem limits_survive (e : Effective) (he : e.flaw? = none) :
    Limiting e.query.eventsLimit e.query.defaultLimit e.query.maxLimit .events ∧
    Limiting e.query.topEventsLimit e.query.topLimit 100 (fun n _ => .top n) ∧
    ∀ (s : Surroundings) (projectId : String) (filter : Filter) (requested : Option Nat)
      (otherwise : Reply) (replies : List Reply),
      (∀ offset, ∀ r ∈ ((execute s e (.events projectId filter requested offset)).run.play otherwise
          replies).requests,
        r.params.get? "limit" = (e.query.eventsLimit requested).map .word) ∧
      ∀ r ∈ ((execute s e (.top projectId filter requested)).run.play otherwise replies).requests,
        r.params.get? "limit" = (e.query.topEventsLimit requested).map .word := by
  have sound := (Settings.flaw_free e).mp he
  have events := Settings.events_limiting sound
  have top := Settings.top_limiting sound
  refine ⟨events, top, fun s projectId filter requested otherwise replies => ⟨?_, ?_⟩⟩
  · intro offset r hr
    obtain ⟨n, hn, least, most⟩ := events.given requested
    have kept := Report.clamp_within least (most.trans sound.maxLimit.2)
    have sent := stored_requests (shownRows Store.EventRow.toJson) (Store.events
      e.store.timeoutSecs projectId filter
      ((e.query.eventsLimit requested).getD Limits.listedEvents) offset) otherwise replies
    have asked := (congrArg (r ∈ ·) sent).mp hr
    rw [hn, Option.getD_some] at asked
    rw [hn]
    exact events_limited otherwise replies kept asked
  · intro r hr
    obtain ⟨n, hn, least, most⟩ := top.given requested
    have kept := Report.clamp_within least most
    have sent := stored_requests (shownRows Store.TopRow.toJson) (Store.top
      e.store.timeoutSecs projectId filter
      ((e.query.topEventsLimit requested).getD Limits.topEvents)) otherwise replies
    have asked := (congrArg (r ∈ ·) sent).mp hr
    rw [hn, Option.getD_some] at asked
    rw [hn]
    exact top_limited otherwise replies kept asked

theorem limits_survive_narrow :
    let e : Effective := ⟨⟨"http://localhost:8123", "cohortql", none, none, 30, true⟩, ⟨20, 50, 7⟩⟩
    e.flaw? = none ∧ e.query.eventsLimit none = some 20 ∧
    e.query.eventsLimit (some 4294967295) = some 50 ∧ e.query.topEventsLimit none = some 7 ∧
    ∃ q, Report.query "7c9e6679-7425-40de-944b-e07fc1f90ae7" (.events 50 0)
      ⟨none, none, some "2024-01-01", none⟩ = .ok q ∧ q.params.get? "limit" = some (.word 50) := by
  intro e
  have he : e.flaw? = none := by decide +kernel
  obtain ⟨events, top, -⟩ := limits_survive e he
  have many : e.query.eventsLimit (some 4294967295) = some 50 := by decide +kernel
  refine ⟨he, events.unasked, many, top.unasked, ?_⟩
  refine (events.bound _ _ many "7c9e6679-7425-40de-944b-e07fc1f90ae7"
    ⟨none, none, some "2024-01-01", none⟩ 0).resolve_left fun ⟨e, refused⟩ => ?_
  obtain ⟨u, hu⟩ : ∃ u, Uuid.read (Text.trim "7c9e6679-7425-40de-944b-e07fc1f90ae7") = some u :=
    Option.isSome_iff_exists.mp (Uuid.grouped_known (by decide))
  have range : Report.Filter.range ⟨none, none, some "2024-01-01", none⟩ =
      .ok (some "2024-01-01 00:00:00.000", none) := rfl
  obtain ⟨q, given, -⟩ := Report.report_given hu range .totals
  rw [refused] at given
  cases given

end Program

end CohortQuery
