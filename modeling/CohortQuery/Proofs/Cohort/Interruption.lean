import CohortQuery.Proofs.Cohort.Served

/-!
# A materialization that fails

The three statements go one after the other, and what one of them did stays done when a later one
fails. So a failure leaves the stored members as they were, or as they will be, or none of them:
those of before are removed by a statement of their own.
-/

set_option autoImplicit false

namespace CohortQuery

open Sql (Predicate)
open Store (Abandoned CohortRequest Effect Engine Membership Reply Served Serial StoreError
  StoredCohort Succeeds Tables Turn)

/-- What a materialization that succeeds can leave. -/
def Store.CohortRequest.Completes (r : CohortRequest) (E : Engine) (cohort : String)
    (tables left : Tables) : Prop :=
  ∃ (seconds : Nat) (s : StoredCohort),
    Succeeds E (Store.materialize seconds r cohort) tables s left

theorem completes_without {E : Engine} {r : CohortRequest} {cohort : String}
    {tables left : Tables} {u : Uuid} (hu : Uuid.read (Text.trim r.projectId) = some u)
    (h : r.Completes E cohort tables left) :
    left.without u.render cohort = tables.without u.render cohort := by
  obtain ⟨_, _, h⟩ := h
  obtain ⟨_, _, v, q, now, hv, _, rfl, _⟩ := (materialize_succeeds _ _ _ _ _ _ _).mp h
  obtain rfl : u = v := Option.some.inj (hu.symm.trans hv)
  rw [storing_without, without_without]

/-- How far a materialization came that failed. The last statement that it sent was the removal of
the members, or their insertion behind that, or the count behind both. -/
theorem failure_reaches {E : Engine} {seconds : Nat} {r : CohortRequest} {cohort : String}
    {tables left : Tables} {ts : List Turn} {effects : List Effect} {e : StoreError}
    (ht : (Store.materialize seconds r cohort).run.Talks ts (some (.error e)))
    (hs : Served E tables ts effects left) :
    ts = [] ∧ left = tables ∨ ∃ u, Uuid.read (Text.trim r.projectId) = some u ∧
      ((∃ effect, effects = [effect] ∧
          effect.Leaves tables (tables.without u.render cohort) left) ∨
        (∃ effect done, effects = [.whole, effect] ∧ r.Completes E cohort tables done ∧
          effect.Leaves (tables.without u.render cohort) done left) ∨
        ∃ effect, effects = [.whole, .whole, effect] ∧ r.Completes E cohort tables left) := by
  cases hm : r.materialization cohort with
  | error d =>
    rw [Store.materialize, hm] at ht
    obtain ⟨rfl, _⟩ := (Store.Exchange.talks_done _ _ _).mp ht
    exact .inl ⟨rfl, (Store.served_nil.mp hs).2⟩
  | ok m =>
    have hv := Store.storing_steps_verbatim seconds cohort hm
    have ha := (Store.materialize_serial seconds cohort hm).abandoned ht
    obtain ⟨hb, b, p, c, hb', hy, rfl⟩ := (request_materialization r cohort m).mp hm
    obtain ⟨u, hc⟩ := yields_compiled hb' hy
    refine .inr ⟨u, hc.project, ?_⟩
    have completes (now : Int) : r.Completes E cohort tables
        ((tables.without u.render cohort).storing u.render cohort
          ((c.finish (listingSelect p).render).persons { E with now }
            (tables.without u.render cohort))) :=
      ⟨1, _, (materialize_succeeds E 1 r cohort tables _ _).mpr
        ⟨by decide, hb, u, _, now, hc.project, (request_listing r _).mpr ⟨b, p, c, hb', hy, rfl⟩,
          rfl, rfl⟩⟩
    obtain ⟨before, s, rest, passed, t, hp, rfl, hpass, hsend, _⟩ := Store.abandoned_split hv ha
    rcases Store.storing_split hp with ⟨rfl, rfl, _⟩ | ⟨rfl, rfl, _⟩ | ⟨rfl, rfl, _⟩
    · cases hpass
      obtain ⟨effect, rfl, hlast⟩ := (Store.served_single t).mp hs
      exact .inl ⟨effect, rfl, clear_serves hc cohort rfl hsend hlast⟩
    · obtain ⟨t₁, rfl, h₁⟩ := (Store.passes_single _ _).mp hpass
      obtain ⟨_, _, _, rfl, hclear, hs⟩ := (Store.served_cons _ _).mp hs
      obtain ⟨effect, rfl, hlast⟩ := (Store.served_single t).mp hs
      obtain ⟨rfl, rfl⟩ := cleared_left hc cohort h₁ hclear
      obtain ⟨now, hl⟩ := insert_serves hc cohort rfl hsend hlast
      exact .inr (.inl ⟨effect, _, rfl, completes now, hl⟩)
    · cases hpass with
      | cons h₁ hpass =>
        obtain ⟨t₂, rfl, h₂⟩ := (Store.passes_single _ _).mp hpass
        obtain ⟨_, _, _, rfl, hclear, hs⟩ := (Store.served_cons _ _).mp hs
        obtain ⟨_, _, _, rfl, hinsert, hs⟩ := (Store.served_cons _ _).mp hs
        obtain ⟨effect, rfl, hlast⟩ := (Store.served_single t).mp hs
        obtain ⟨rfl, rfl⟩ := cleared_left hc cohort h₁ hclear
        obtain ⟨rfl, now, rfl⟩ := inserted_left hc cohort h₂ hinsert
        obtain rfl := count_serves p _ rfl hsend hlast
        exact .inr (.inr ⟨effect, rfl, completes now⟩)

/-- What a materialization left that failed, if no statement was carried out in part: the members
of before where they were not removed, none where they were removed and no others inserted, and
else those that one leaves that succeeds. Nothing else is touched. -/
theorem materialize_fails (E : Engine) (seconds : Nat) (r : CohortRequest) (cohort : String)
    (tables left : Tables) (ts : List Turn) (effects : List Effect) (e : StoreError)
    (ht : (Store.materialize seconds r cohort).run.Talks ts (some (.error e)))
    (hs : Served E tables ts effects left) (hp : Effect.part ∉ effects) :
    ts = [] ∧ left = tables ∨ ∃ u, Uuid.read (Text.trim r.projectId) = some u ∧
      left.without u.render cohort = tables.without u.render cohort ∧
      (effects = [.none] ∧ left = tables ∨
        (effects = [.whole] ∨ effects = [.whole, .none]) ∧
          left = tables.without u.render cohort ∨
        (∃ rest, effects = .whole :: .whole :: rest) ∧ r.Completes E cohort tables left) ∧
      (tables.cohortRows u.render cohort ≠ [] →
        (∀ done, r.Completes E cohort tables done → done.cohortRows u.render cohort ≠ []) →
        (left.cohortRows u.render cohort = [] ↔
          effects = [.whole] ∨ effects = [.whole, .none])) := by
  refine (failure_reaches ht hs).imp_right ?_
  rintro ⟨u, hu, h⟩
  have hl : effects = [.none] ∧ left = tables ∨
      (effects = [.whole] ∨ effects = [.whole, .none]) ∧ left = tables.without u.render cohort ∨
      (∃ rest, effects = .whole :: .whole :: rest) ∧ r.Completes E cohort tables left := by
    rcases h with ⟨effect, rfl, hl⟩ | ⟨effect, done, rfl, hd, hl⟩ | ⟨effect, rfl, hd⟩
    · cases hl with
      | none => exact .inl ⟨rfl, rfl⟩
      | whole => exact .inr (.inl ⟨.inl rfl, rfl⟩)
      | removed | added => simp at hp
    · cases hl with
      | none => exact .inr (.inl ⟨.inr rfl, rfl⟩)
      | whole => exact .inr (.inr ⟨⟨[], rfl⟩, hd⟩)
      | removed | added => simp at hp
    · exact .inr (.inr ⟨⟨[effect], rfl⟩, hd⟩)
  refine ⟨u, hu, ?_, hl, fun hn hd => ?_⟩
  · rcases hl with ⟨_, rfl⟩ | ⟨_, rfl⟩ | ⟨_, hc⟩
    · rfl
    · exact without_without _ _ _
    · exact completes_without hu hc
  · rcases hl with ⟨rfl, rfl⟩ | ⟨he, rfl⟩ | ⟨⟨rest, rfl⟩, hc⟩
    · simp [hn]
    · simp [he, without_rows]
    · simp [hd left hc]

theorem insert_refused {r : CohortRequest} {cohort : String} {m : Materialization}
    (hm : r.materialization cohort = .ok m) {seconds : Nat} (hz : seconds ≠ 0) (status : Nat)
    (body : String) : ∃ t₁ t₂ e,
      (Store.materialize seconds r cohort).run.Talks [t₁, t₂] (some (.error e)) ∧
      ((Store.Step.execute m.clear).within seconds).Sends t₁.request ∧
      t₁.reply = .rows .nothing none ∧ t₂.reply = .refusal status body := by
  obtain ⟨ts, hi, h⟩ := Store.serial_plays .silence [.rows .nothing none, .refusal status body]
    (Store.storing_steps_verbatim seconds cohort hm) (Store.materialize_serial seconds cohort hm)
  have cleared (t : Turn) (h : ts[0]? = some t) : t.reply = .rows .nothing none := hi 0 t h
  have refused (t : Turn) (h : ts[1]? = some t) : t.reply = .refusal status body := hi 1 t h
  have unstored {t : Turn} (h : ts[1]? = some t) : ¬t.reply.IsWhole := by
    rw [refused t h]
    rintro ⟨_, he⟩
    cases he
  rcases h with ⟨_, hp⟩ | ⟨⟨e, ht⟩, before, s, rest, passed, t, hp, rfl, hb, hs, hg⟩
  · cases hp with
    | cons _ hp =>
      cases hp with
      | cons h₂ _ => exact absurd h₂.good.2 (unstored rfl)
  · rcases Store.storing_split hp with ⟨rfl, rfl, _⟩ | ⟨rfl, rfl, _⟩ | ⟨rfl, rfl, _⟩
    · cases hb
      exact absurd ⟨hz, _, cleared t rfl⟩ hg
    · obtain ⟨_, rfl, h₁⟩ := (Store.passes_single _ _).mp hb
      exact ⟨_, t, e, ht, h₁.sends, cleared _ rfl, refused t rfl⟩
    · cases hb with
      | cons _ hb =>
        obtain ⟨_, rfl, h₂⟩ := (Store.passes_single _ _).mp hb
        exact absurd h₂.good.2 (unstored rfl)

def goldTables : Tables where
  events := vipTables.events
  members := ["vip", "gold"].map fun cohort =>
    ⟨"6f1c2b8e-3d4a-4e5f-8a9b-0c1d2e3f4a5b", cohort, "ann"⟩

theorem gold_run : ∃ (u : Uuid) (t₁ t₂ : Turn) (e : StoreError),
    Uuid.read (Text.trim vipRequest.projectId) = some u ∧
    (Store.materialize 30 vipRequest "gold").run.Talks [t₁, t₂] (some (.error e)) ∧
    Served noonEngine goldTables [t₁, t₂] [.whole, .none]
      (goldTables.without u.render "gold") := by
  obtain ⟨q, hq⟩ := vip_listing
  obtain ⟨b, p, c, hb, hy, rfl⟩ := (request_listing vipRequest q).mp hq
  obtain ⟨u, hc⟩ := yields_compiled hb hy
  have hm := (request_materialization vipRequest "gold" _).mpr ⟨by decide, b, p, c, hb, hy, rfl⟩
  obtain ⟨t₁, t₂, e, ht, hs₁, hr₁, hr₂⟩ := insert_refused hm (by decide : 30 ≠ 0) 500 "disk full"
  refine ⟨u, t₁, t₂, e, hc.project, ht, .cons (clear_served hc "gold" hs₁ rfl hr₁)
    (.cons (.refused ?_) (.nil _))⟩
  rw [hr₂]
  simp

theorem gold_members {u : Uuid} (hu : Uuid.read (Text.trim vipRequest.projectId) = some u) :
    goldTables.cohortRows u.render "gold" ≠ [] ∧
      (∃ done, vipRequest.Completes noonEngine "gold" goldTables done) ∧
      ∀ done, vipRequest.Completes noonEngine "gold" goldTables done →
        done.cohortRows u.render "gold" ≠ [] := by
  obtain ⟨q, hq⟩ := vip_listing
  have hr : u.render = "6f1c2b8e-3d4a-4e5f-8a9b-0c1d2e3f4a5b" := by
    simpa [hu] using vip_project
  have stored (now : Int) : "ann" ∈ q.persons { noonEngine with now }
      (goldTables.without u.render "gold") := by
    rw [members_persons hu hq rfl]
    simp [goldTables, vipTables, Tables.without, hr]
  refine ⟨?_, ?_, ?_⟩
  · simp [goldTables, Tables.cohortRows, hr]
  · exact ⟨_, 1, _, (materialize_succeeds _ _ _ _ _ _ _).mpr
      ⟨by decide, by decide, u, _, 0, hu, hq, rfl, rfl⟩⟩
  · rintro done ⟨seconds, s, h⟩ hn
    obtain ⟨_, _, v, r, now, hv, hl, rfl, _⟩ := (materialize_succeeds _ _ _ _ _ _ _).mp h
    obtain rfl : u = v := Option.some.inj (hu.symm.trans hv)
    obtain rfl := Except.ok.inj (hq.symm.trans hl)
    have ha : (⟨u.render, "gold", "ann"⟩ : Membership) ∈ ([] : List Membership) := by
      rw [← hn, storing_rows]
      exact List.mem_map_of_mem (stored now)
    cases ha

theorem gold_interrupted : ∃ (u : Uuid) (ts : List Turn) (effects : List Effect) (e : StoreError)
    (left : Tables), Uuid.read (Text.trim vipRequest.projectId) = some u ∧
    (Store.materialize 30 vipRequest "gold").run.Talks ts (some (.error e)) ∧
    Served noonEngine goldTables ts effects left ∧ Effect.part ∉ effects ∧
    effects = [.whole, .none] ∧
    left.without u.render "gold" = goldTables.without u.render "gold" ∧
    left.cohortRows u.render "gold" = [] := by
  obtain ⟨u, t₁, t₂, e, hu, ht, hs⟩ := gold_run
  have hp : Effect.part ∉ [Effect.whole, Effect.none] := by simp
  rcases materialize_fails noonEngine 30 vipRequest "gold" goldTables _ _ _ e ht hs hp with
    ⟨hn, _⟩ | ⟨v, hv, hw, _, hiff⟩
  · cases hn
  · obtain rfl : u = v := Option.some.inj (hu.symm.trans hv)
    obtain ⟨hb, _, hd⟩ := gold_members hu
    exact ⟨u, _, _, e, _, hu, ht, hs, hp, rfl, hw, (hiff hb hd).mpr (.inr rfl)⟩

/-- It loses its members, whom it had before and has when all goes well. -/
theorem gold_lost : ∃ (u : Uuid) (ts : List Turn) (effects : List Effect) (e : StoreError)
    (left : Tables), Uuid.read (Text.trim vipRequest.projectId) = some u ∧
    (Store.materialize 30 vipRequest "gold").run.Talks ts (some (.error e)) ∧
    Served noonEngine goldTables ts effects left ∧ Effect.part ∉ effects ∧
    goldTables.cohortRows u.render "gold" ≠ [] ∧
    (∃ after, vipRequest.Completes noonEngine "gold" goldTables after) ∧
    (∀ after, vipRequest.Completes noonEngine "gold" goldTables after →
      after.cohortRows u.render "gold" ≠ []) ∧
    left.cohortRows u.render "gold" = [] := by
  obtain ⟨u, t₁, t₂, e, hu, ht, hs⟩ := gold_run
  obtain ⟨hb, hc, hd⟩ := gold_members hu
  exact ⟨u, _, _, e, _, hu, ht, hs, by simp, hb, hc, hd, without_rows _ _ _⟩

end CohortQuery
