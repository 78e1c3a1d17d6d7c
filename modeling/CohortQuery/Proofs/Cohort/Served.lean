import CohortQuery.Proofs.Cohort.Materialize
import CohortQuery.Proofs.Store.Sending

/-!
# Requests that are served

What the store makes of the turns of a conversation, and of each request of a materialization. A
reply that came to its end says that the statement was carried out; any other leaves open how much
of it was.
-/

set_option autoImplicit false

namespace CohortQuery

open Sql (Predicate Statement allOf)
open Store (CohortRequest Effect Engine Executes Serves Tables Turn)

namespace Store

/-- The store serves the turns one after the other, and nobody else between them. -/
inductive Served (E : Engine) : Tables → List Turn → List Effect → Tables → Prop where
  | nil (tables : Tables) : Served E tables [] [] tables
  | cons {tables after left : Tables} {t : Turn} {ts : List Turn} {effect : Effect}
      {effects : List Effect} (h : Serves E t.request tables t.reply effect after)
      (ht : Served E after ts effects left) : Served E tables (t :: ts) (effect :: effects) left

section

variable {E : Engine} {α : Type} {tables left : Tables} {effect : Effect}
  {effects : List Effect}

theorem served_nil : Served E tables [] effects left ↔ effects = [] ∧ left = tables := by
  constructor
  · intro h
    cases h
    exact ⟨rfl, rfl⟩
  · rintro ⟨rfl, rfl⟩
    exact .nil _

theorem served_cons (t : Turn) (ts : List Turn) : Served E tables (t :: ts) effects left ↔
    ∃ effect rest after, effects = effect :: rest ∧ Serves E t.request tables t.reply effect after ∧
      Served E after ts rest left := by
  constructor
  · intro h
    cases h with
    | cons h ht => exact ⟨_, _, _, rfl, h, ht⟩
  · rintro ⟨effect, rest, after, rfl, h, ht⟩
    exact .cons h ht

theorem served_single (t : Turn) : Served E tables [t] effects left ↔
    ∃ effect, effects = [effect] ∧ Serves E t.request tables t.reply effect left := by
  simp only [served_cons, served_nil]
  constructor
  · rintro ⟨effect, _, _, rfl, h, rfl, rfl⟩
    exact ⟨effect, rfl, h⟩
  · rintro ⟨effect, rfl, h⟩
    exact ⟨effect, [], left, rfl, h, rfl, rfl⟩

theorem runs_talks (x : Exchange α) (a : α) : Runs E x tables a left ↔
    ∃ ts effects, x.Talks ts (some a) ∧ Served E tables ts effects left := by
  induction x generalizing tables with
  | done b =>
    rw [runs_done]
    simp only [Exchange.talks_done]
    constructor
    · rintro ⟨rfl, rfl⟩
      exact ⟨[], [], ⟨rfl, .inr rfl⟩, .nil _⟩
    · rintro ⟨_, _, ⟨rfl, ha⟩, hs⟩
      exact ⟨by simpa using ha, (served_nil.mp hs).2⟩
  | note e rest ih =>
    rw [runs_note, ih]
    simp only [Exchange.talks_note]
  | ask r next ih =>
    rw [runs_ask]
    simp only [ih, Exchange.talks_ask]
    constructor
    · rintro ⟨reply, effect, after, hr, ts, effects, ht, hs⟩
      exact ⟨_, _, .inr ⟨reply, ts, rfl, ht⟩, .cons hr hs⟩
    · rintro ⟨_, _, ⟨_, ha⟩ | ⟨reply, ts, rfl, ht⟩, hs⟩
      · cases ha
      · obtain ⟨effect, rest, after, _, hr, hs⟩ := (served_cons _ _).mp hs
        exact ⟨reply, effect, after, hr, ts, rest, ht, hs⟩

theorem whole_served {r : Request} {reply : Reply} (h : Serves E r tables reply effect left)
    (hr : reply.IsWhole) : effect = .whole := by
  obtain ⟨rows, rfl⟩ := hr
  cases h with
  | rows _ _ _ _ _ hf => exact (hf rfl).2
  | lost _ _ _ _ hn | refused hn => exact absurd rfl (hn rows none)

theorem served_effect {s : Step} {q : Query} (hq : s.query = q) {statement : Statement} {t : Turn}
    (hv : Verbatim q.sql) (hr : Statement.read q.sql = some statement) (hs : s.Sends t.request)
    (h : Serves E t.request tables t.reply effect left) :
    (∃ (now : Int) (after : Tables) (all : Table),
      Executes { E with now } q.params tables statement after all ∧
        effect.Leaves tables after left) ∨ effect = .none ∧ left = tables := by
  subst hq
  rw [sends_verbatim hv hs] at h
  generalize t.reply = reply at h
  have read {other : Statement} (ho : Statement.read s.request.sql = some other) :
      other = statement :=
    Option.some.inj (ho.symm.trans hr)
  cases h with
  | rows now ho he _ hl | lost now ho he hl =>
    obtain rfl := read ho
    exact .inl ⟨now, _, _, he, hl⟩
  | refused => exact .inr ⟨rfl, rfl⟩

theorem effect_served {s : Step} {q : Query} (hq : s.query = q) {statement : Statement}
    {t : Turn} (hv : Verbatim q.sql) (hr : Statement.read q.sql = some statement)
    (hs : s.Sends t.request) {all : Table} (ht : t.reply = .rows all none)
    (he : Executes E q.params tables statement left all) :
    Serves E t.request tables t.reply .whole left := by
  subst hq
  rw [sends_verbatim hv hs, ht]
  exact .rows E.now hr he (.whole all) .whole fun _ => ⟨rfl, rfl⟩

end

end Store

section

variable {E : Engine} {tables left : Tables} {r : CohortRequest} {u : Uuid} {p : Predicate}
  {c : Bindings} {s : Store.Step} {t : Turn} {effect : Effect}

section

variable (h : Compiled r u p c) (cohort : String)

include h

theorem clear_serves (hq : s.query = (stored p (c.bindNamed cohortName (.text cohort)).2).clear)
    (hs : s.Sends t.request) (ht : Serves E t.request tables t.reply effect left) :
    effect.Leaves tables (tables.without u.render cohort) left := by
  rcases Store.served_effect hq verbatim_clear clear_read hs ht with
    ⟨now, after, all, he, hl⟩ | ⟨rfl, rfl⟩
  · obtain ⟨rfl, _⟩ := (clear_executes h cohort _ tables after all).mp he
    exact hl
  · exact .none

theorem insert_serves (hq : s.query = (stored p (c.bindNamed cohortName (.text cohort)).2).insert)
    (hs : s.Sends t.request) (ht : Serves E t.request tables t.reply effect left) :
    ∃ now : Int, effect.Leaves tables (tables.storing u.render cohort
      ((c.finish (listingSelect p).render).persons { E with now } tables)) left := by
  rcases Store.served_effect hq (verbatim_insert h.proper) (insert_read h.proper h.full) hs ht with
    ⟨now, after, all, he, hl⟩ | ⟨rfl, rfl⟩
  · obtain ⟨rfl, _⟩ := (insert_executes h cohort _ tables after all).mp he
    exact ⟨now, hl⟩
  · exact ⟨E.now, .none⟩

theorem clear_served (hs : s.Sends t.request)
    (hq : s.query = (stored p (c.bindNamed cohortName (.text cohort)).2).clear)
    (hr : t.reply = .rows .nothing none) :
    Serves E t.request tables t.reply .whole (tables.without u.render cohort) :=
  Store.effect_served hq verbatim_clear clear_read hs hr
    ((clear_executes h cohort E tables _ _).mpr ⟨rfl, rfl⟩)

theorem insert_served (hs : s.Sends t.request)
    (hq : s.query = (stored p (c.bindNamed cohortName (.text cohort)).2).insert)
    (hr : t.reply = .rows .nothing none) :
    Serves E t.request tables t.reply .whole (tables.storing u.render cohort
      ((c.finish (listingSelect p).render).persons E tables)) :=
  Store.effect_served hq (verbatim_insert h.proper) (insert_read h.proper h.full) hs hr
    ((insert_executes h cohort E tables _ _).mpr ⟨rfl, rfl⟩)

theorem count_served (hs : s.Sends t.request)
    (hq : s.query = (stored p (c.bindNamed cohortName (.text cohort)).2).count)
    (hr : t.reply = .rows (.numbers [(tables.cohortRows u.render cohort).dedup.length]) none) :
    Serves E t.request tables t.reply .whole tables := by
  have hm : (tables.members.filter fun m => (allOf storedRows).value (Sql.RowTest.memberTruth
      (Materialization.scopeParams (c.bindNamed cohortName (.text cohort)).2.params) m) =
        some true) = tables.cohortRows u.render cohort := by
    apply List.filter_congr
    intro m _
    simp only [stored_truth h]
  rw [← hm] at hr
  exact Store.effect_served hq verbatim_count count_read hs hr (.count _)

theorem cleared_left {seconds : Nat} (hp : ((Store.Step.execute
      (stored p (c.bindNamed cohortName (.text cohort)).2).clear).within seconds).Passes t)
    (ht : Serves E t.request tables t.reply effect left) :
    effect = .whole ∧ left = tables.without u.render cohort := by
  obtain rfl := Store.whole_served ht hp.good.2
  cases clear_serves h cohort rfl hp.sends ht
  exact ⟨rfl, rfl⟩

theorem inserted_left {seconds : Nat} (hp : ((Store.Step.execute
      (stored p (c.bindNamed cohortName (.text cohort)).2).insert).within seconds).Passes t)
    (ht : Serves E t.request tables t.reply effect left) :
    effect = .whole ∧ ∃ now : Int, left = tables.storing u.render cohort
      ((c.finish (listingSelect p).render).persons { E with now } tables) := by
  obtain rfl := Store.whole_served ht hp.good.2
  obtain ⟨now, hl⟩ := insert_serves h cohort rfl hp.sends ht
  cases hl
  exact ⟨rfl, now, rfl⟩

end

theorem count_serves (p : Predicate) (b : Bindings) (hq : s.query = (stored p b).count)
    (hs : s.Sends t.request) (ht : Serves E t.request tables t.reply effect left) :
    left = tables := by
  rcases Store.served_effect hq verbatim_count count_read hs ht with ⟨_, _, _, he, hl⟩ | ⟨_, hl⟩
  · cases he
    exact Store.leaves_same hl
  · exact hl

end

end CohortQuery
