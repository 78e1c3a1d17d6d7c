import CohortQuery.Proofs.Cohort.Served
import Mathlib.Logic.Function.Basic

/-!
# Materializations side by side

Several clients store one cohort, and nobody keeps their requests apart. Each removal of members
takes what was stored before it, whoever stored it; what is stored behind the last one stays.
-/

set_option autoImplicit false

namespace CohortQuery

open Sql (Predicate)
open Store (CohortRequest Effect Engine Serves Step StoredCohort Tables Turn)

namespace Store

section

variable {ι : Type} [DecidableEq ι]

/-- The turns of one client among those of all. -/
def own (i : ι) (turns : List (ι × Turn)) : List Turn :=
  (turns.filter fun t => t.1 = i).map Prod.snd

theorem own_append (i : ι) (before behind : List (ι × Turn)) :
    own i (before ++ behind) = own i before ++ own i behind := by
  rw [own, List.filter_append, List.map_append, own, own]

theorem own_self (i : ι) (t : Turn) (turns : List (ι × Turn)) :
    own i ((i, t) :: turns) = t :: own i turns := by
  simp [own]

theorem own_other {i j : ι} (h : i ≠ j) (t : Turn) (turns : List (ι × Turn)) :
    own j ((i, t) :: turns) = own j turns := by
  simp [own, h]

theorem own_length (i j : ι) (t : Turn) (turns : List (ι × Turn)) :
    (own j ((i, t) :: turns)).length = (own j turns).length + if i = j then 1 else 0 := by
  by_cases h : i = j
  · subst h
    simp [own_self]
  · simp [own_other h, h]

/-- The operations of some clients come back with their results, while the store serves the
requests of all of them in some order. -/
structure Together {α : Type} (E : Engine) (ops : ι → Operation α) (tables : Tables)
    (turns : List (ι × Turn)) (results : ι → α) (left : Tables) : Prop where
  talks (i : ι) : (ops i).run.Talks (own i turns) (some (.ok (results i)))
  served : ∃ effects, Served E tables (turns.map Prod.snd) effects left

/-- Each client still has to send the last statements of its plan, and all of them go well. -/
def Pending (plan : ι → List Step) (turns : List (ι × Turn)) : Prop :=
  ∀ i, ∃ sent rest, plan i = sent ++ rest ∧ List.Forall₂ Step.Passes rest (own i turns)

variable {plan : ι → List Step} {i : ι} {t : Turn} {turns : List (ι × Turn)}

theorem pending_length (h : Pending plan turns) (i : ι) :
    (own i turns).length ≤ (plan i).length := by
  obtain ⟨sent, rest, hp, hr⟩ := h i
  rw [← hr.length_eq, hp, List.length_append]
  omega

theorem pending_next (h : Pending plan ((i, t) :: turns)) : Pending plan turns ∧
    ∃ sent s rest, plan i = sent ++ s :: rest ∧ s.Passes t ∧
      rest.length = (own i turns).length := by
  obtain ⟨sent, rest, hp, hr⟩ := h i
  rw [own_self] at hr
  cases hr with
  | @cons s _ rest _ hs hr =>
    refine ⟨fun j => ?_, sent, s, rest, hp, hs, hr.length_eq⟩
    by_cases hj : i = j
    · subst hj
      exact ⟨sent ++ [s], rest, by simp [hp], hr⟩
    · obtain ⟨sent, rest, hp, hr⟩ := h j
      rw [own_other hj] at hr
      exact ⟨sent, rest, hp, hr⟩

end

end Store

theorem mem_storing (tables : Tables) (project cohort : String) (ids : List String)
    (id : String) : ⟨project, cohort, id⟩ ∈ (tables.storing project cohort ids).members ↔
      ⟨project, cohort, id⟩ ∈ tables.members ∨ id ∈ ids := by
  simp [Tables.storing]

theorem not_mem_without (tables : Tables) (project cohort id : String) :
    ⟨project, cohort, id⟩ ∉ (tables.without project cohort).members := by
  simp [Tables.without]

theorem turn_leaves {E : Engine} {tables left : Tables} {r : CohortRequest} {u : Uuid}
    {p : Predicate} {c : Bindings} (h : Compiled r u p c) (cohort : String) {seconds : Nat}
    {sent rest : List Step} {s : Step} {t : Turn} {effect : Effect}
    (hp : Step.storing seconds (stored p (c.bindNamed cohortName (.text cohort)).2) =
      sent ++ s :: rest)
    (hs : s.Passes t) (ht : Serves E t.request tables t.reply effect left) :
    rest.length = 2 ∧ left = tables.without u.render cohort ∨
      rest.length = 1 ∧ (∃ now : Int, left = tables.storing u.render cohort
        ((c.finish (listingSelect p).render).persons { E with now } tables)) ∨
      rest.length = 0 ∧ left = tables := by
  rcases Store.storing_split hp with ⟨_, rfl, hr⟩ | ⟨_, rfl, hr⟩ | ⟨_, rfl, hr⟩
  · exact .inl ⟨hr, (cleared_left h cohort hs ht).2⟩
  · exact .inr (.inl ⟨hr, (inserted_left h cohort hs ht).2⟩)
  · exact .inr (.inr ⟨hr, count_serves p _ rfl hs.sends ht⟩)

section

variable {ι : Type} [DecidableEq ι] {E : Engine} {r : ι → CohortRequest} {u : Uuid}
  {p : ι → Predicate} {c : ι → Bindings} {cohort : String} {seconds : ι → Nat} {base : Tables}
  (h : ∀ i, Compiled (r i) u (p i) (c i)) (ho : ∀ i, ¬(r i).definition.AsksFor cohort)

include h ho

omit [DecidableEq ι] in
theorem persons_beside (i : ι) (E : Engine) {tables : Tables}
    (hb : tables.without u.render cohort = base.without u.render cohort) :
    ((c i).finish (listingSelect (p i)).render).persons E tables =
      ((c i).finish (listingSelect (p i)).render).persons E base := by
  rw [← persons_without (h i) (ho i) E tables, hb, persons_without (h i) (ho i) E base]

omit h ho in
theorem insertions_due (P : ι → Int → Prop) (i : ι) (t : Turn) {turns : List (ι × Turn)}
    (hi : (Store.own i turns).length = 1) (now : ι → Int) (n : Int) :
    (∃ j, (Store.own j ((i, t) :: turns)).length = 2 ∧ P j (Function.update now i n j)) ↔
      P i n ∨ ∃ j, (Store.own j turns).length = 2 ∧ P j (now j) := by
  have hj (j : ι) := Store.own_length i j t turns
  constructor
  · rintro ⟨j, hl, hp⟩
    by_cases hij : i = j
    · subst hij
      rw [Function.update_self] at hp
      exact .inl hp
    · rw [hj, if_neg hij] at hl
      rw [Function.update_of_ne (Ne.symm hij)] at hp
      exact .inr ⟨j, hl, hp⟩
  · rintro (hp | ⟨j, hl, hp⟩)
    · refine ⟨i, ?_, ?_⟩
      · rw [hj, if_pos rfl, hi]
      · rwa [Function.update_self]
    · have hij : i ≠ j := by
        rintro rfl
        omega
      refine ⟨j, ?_, ?_⟩
      · rwa [hj, if_neg hij]
      · rwa [Function.update_of_ne hij.symm]

/-- Where no client removes members any more, those are added whose insertion is to come. -/
theorem insertions_add {turns : List (ι × Turn)} {effects : List Effect} {tables left : Tables}
    (hb : tables.without u.render cohort = base.without u.render cohort)
    (hp : Store.Pending (fun i => Step.storing (seconds i)
      (stored (p i) ((c i).bindNamed cohortName (.text cohort)).2)) turns)
    (hn : ∀ i, (Store.own i turns).length ≤ 2)
    (hs : Store.Served E tables (turns.map Prod.snd) effects left) :
    left.without u.render cohort = base.without u.render cohort ∧
      ∃ now : ι → Int, ∀ id, ⟨u.render, cohort, id⟩ ∈ left.members ↔
        ⟨u.render, cohort, id⟩ ∈ tables.members ∨ ∃ i, (Store.own i turns).length = 2 ∧
          id ∈ ((c i).finish (listingSelect (p i)).render).persons { E with now := now i } base := by
  induction turns generalizing tables effects with
  | nil =>
    obtain ⟨_, rfl⟩ := Store.served_nil.mp hs
    exact ⟨hb, fun _ => 0, fun id => by simp [Store.own]⟩
  | cons it turns ih =>
    obtain ⟨i, t⟩ := it
    obtain ⟨_, _, after, _, ht, hs'⟩ := (Store.served_cons _ _).mp hs
    obtain ⟨hp', sent, s, rest, hi, hpass, hr⟩ := Store.pending_next hp
    have hj (j : ι) := Store.own_length i j t turns
    have hn' (j : ι) : (Store.own j turns).length ≤ 2 := by
      have := hn j
      have := hj j
      omega
    have hend : (Store.own i turns).length ≤ 1 := by
      have := hn i
      have := hj i
      rw [if_pos rfl] at this
      omega
    rcases turn_leaves (h i) cohort hi hpass ht with ⟨hl, _⟩ | ⟨hl, n, rfl⟩ | ⟨hl, rfl⟩
    · omega
    · -- the insertion of client `i`, which has only its count to come
      obtain ⟨hw, now, hm⟩ := ih ((storing_without _ _ _ _).trans hb) hp' hn' hs'
      refine ⟨hw, Function.update now i n, fun id => ?_⟩
      rw [hm, mem_storing, persons_beside h ho i _ hb, or_assoc]
      exact or_congr Iff.rfl (insertions_due (fun j time => id ∈
        ((c j).finish (listingSelect (p j)).render).persons { E with now := time } base)
        i t (by omega) now n).symm
    · -- the count of client `i`, which is its last turn
      obtain ⟨hw, now, hm⟩ := ih hb hp' hn' hs'
      refine ⟨hw, now, fun id => ?_⟩
      rw [hm]
      refine or_congr Iff.rfl (exists_congr fun j => and_congr_left fun _ => ?_)
      rw [hj]
      split
      next hij =>
        subst hij
        omega
      next => exact Iff.rfl

/-- There is a last removal, and what is stored at the end are the members that are added behind
it. -/
theorem last_removal {turns : List (ι × Turn)} {effects : List Effect} {tables left : Tables}
    (hb : tables.without u.render cohort = base.without u.render cohort)
    (hp : Store.Pending (fun i => Step.storing (seconds i)
      (stored (p i) ((c i).bindNamed cohortName (.text cohort)).2)) turns)
    (hn : ∃ i, (Store.own i turns).length = 3)
    (hs : Store.Served E tables (turns.map Prod.snd) effects left) :
    left.without u.render cohort = base.without u.render cohort ∧
      ∃ (now : ι → Int) (before : List (ι × Turn)) (last : ι) (t : Turn)
        (behind : List (ι × Turn)), turns = before ++ (last, t) :: behind ∧
        (Store.own last behind).length = 2 ∧ (∀ i, (Store.own i behind).length ≤ 2) ∧
        ∀ id, ⟨u.render, cohort, id⟩ ∈ left.members ↔ ∃ i, (Store.own i behind).length = 2 ∧
          id ∈ ((c i).finish (listingSelect (p i)).render).persons { E with now := now i } base := by
  induction turns generalizing tables effects with
  | nil =>
    obtain ⟨i, hi⟩ := hn
    simp [Store.own] at hi
  | cons it turns ih =>
    obtain ⟨i, t⟩ := it
    obtain ⟨_, _, after, _, ht, hs'⟩ := (Store.served_cons _ _).mp hs
    obtain ⟨hp', sent, s, rest, hi, hpass, hr⟩ := Store.pending_next hp
    have hleave := turn_leaves (h i) cohort hi hpass ht
    have ha : after.without u.render cohort = base.without u.render cohort := by
      rcases hleave with ⟨_, rfl⟩ | ⟨_, _, rfl⟩ | ⟨_, rfl⟩
      · exact (without_without _ _ _).trans hb
      · exact (storing_without _ _ _ _).trans hb
      · exact hb
    by_cases hm : ∃ j, (Store.own j turns).length = 3
    · obtain ⟨hw, now, before, last, t', behind, rfl, hl, hbehind, hmem⟩ := ih ha hp' hm hs'
      exact ⟨hw, now, (i, t) :: before, last, t', behind, rfl, hl, hbehind, hmem⟩
    · -- no client removes members behind this turn, so it is the last removal
      have hbehind (j : ι) : (Store.own j turns).length ≤ 2 := by
        have hj := Store.pending_length hp' j
        have hne : (Store.own j turns).length ≠ 3 := fun he => hm ⟨j, he⟩
        simp only [Step.storing, List.length_cons, List.length_nil] at hj
        omega
      have hl : (Store.own i turns).length = 2 := by
        obtain ⟨j, hj⟩ := hn
        rw [Store.own_length] at hj
        have := hbehind j
        split at hj
        next hij =>
          subst hij
          omega
        next => omega
      obtain rfl : after = tables.without u.render cohort := by
        rcases hleave with ⟨_, hl'⟩ | ⟨hl', _⟩ | ⟨hl', _⟩
        · exact hl'
        · omega
        · omega
      obtain ⟨hw, now, hmem⟩ := insertions_add h ho ha hp' hbehind hs'
      refine ⟨hw, now, [], i, t, turns, rfl, hl, hbehind, fun id => ?_⟩
      rw [hmem, or_iff_right (not_mem_without _ _ _ _)]

end

theorem materialize_compiled {seconds : Nat} {r : CohortRequest} {cohort : String}
    {ts : List Turn} {s : StoredCohort}
    (h : (Store.materialize seconds r cohort).run.Talks ts (some (.ok s))) :
    ∃ m, r.materialization cohort = .ok m := by
  cases hm : r.materialization cohort with
  | error e =>
    rw [Store.materialize, hm] at h
    have ho := ((Store.Exchange.talks_done _ _ _).mp h).2
    simp at ho
  | ok m => exact ⟨m, rfl⟩

/-- Where several clients store one cohort side by side, its members are at the end those of the
client whose removal is served last, and of those others whose removal is served before it but
whose insertion is not. Nothing else is touched. -/
theorem materialize_together {ι : Type} [DecidableEq ι] [Nonempty ι] (E : Engine)
    (seconds : ι → Nat) (r : ι → CohortRequest) (cohort : String) (u : Uuid)
    (hu : ∀ i, Uuid.read (Text.trim (r i).projectId) = some u)
    (ho : ∀ i, ¬(r i).definition.AsksFor cohort) (tables left : Tables)
    (turns : List (ι × Turn)) (results : ι → StoredCohort)
    (h : Store.Together E (fun i => Store.materialize (seconds i) (r i) cohort) tables turns
      results left) :
    left.without u.render cohort = tables.without u.render cohort ∧
      ∃ (q : ι → Query) (now : ι → Int) (before : List (ι × Turn)) (last : ι) (t : Turn)
        (behind : List (ι × Turn)), (∀ i, (r i).listing = .ok (q i)) ∧
        turns = before ++ (last, t) :: behind ∧ Store.own last before = [] ∧
        (∀ i, i ≠ last → Store.own i before ≠ []) ∧
        ∀ id, ⟨u.render, cohort, id⟩ ∈ left.members ↔ ∃ i, (Store.own i before).length < 2 ∧
          id ∈ (q i).persons { E with now := now i } tables := by
  have compiled (i : ι) : ∃ p c, Compiled (r i) u p c ∧
      (r i).listing = .ok (c.finish (listingSelect p).render) ∧
      (r i).materialization cohort = .ok (stored p (c.bindNamed cohortName (.text cohort)).2) := by
    obtain ⟨m, hm⟩ := materialize_compiled (h.talks i)
    obtain ⟨_, b, p, c, hb, hy, rfl⟩ := (request_materialization (r i) cohort m).mp hm
    obtain ⟨v, hc⟩ := yields_compiled hb hy
    obtain rfl : u = v := Option.some.inj ((hu i).symm.trans hc.project)
    exact ⟨p, c, hc, (request_listing _ _).mpr ⟨b, p, c, hb, hy, rfl⟩, hm⟩
  choose p c hc hq hm using compiled
  obtain ⟨effects, hs⟩ := h.served
  have passes (i : ι) :=
    (Store.materialize_serial (seconds i) cohort (hm i)).passes (h.talks i)
  have hlen (i : ι) : (Store.own i turns).length = 3 := (passes i).length_eq.symm
  obtain ⟨hw, now, before, last, t, behind, rfl, hl, hbehind, hmem⟩ :=
    last_removal hc ho rfl (fun i => ⟨[], _, rfl, passes i⟩)
      ⟨Classical.arbitrary ι, hlen _⟩ hs
  have hsplit (i : ι) : (Store.own i before).length + (if last = i then 1 else 0) +
      (Store.own i behind).length = 3 := by
    have := hlen i
    rw [Store.own_append, List.length_append, Store.own_length] at this
    omega
  refine ⟨hw, _, now, before, last, t, behind, hq, rfl, ?_, fun i hi => ?_, fun id => ?_⟩
  · have := hsplit last
    rw [if_pos rfl] at this
    exact List.length_eq_zero_iff.mp (by omega)
  · have := hsplit i
    rw [if_neg (Ne.symm hi)] at this
    have := hbehind i
    exact List.ne_nil_of_length_pos (by omega)
  · rw [hmem]
    refine exists_congr fun i => and_congr_left fun _ => ?_
    have hi := hsplit i
    have := hbehind i
    by_cases hl' : last = i
    · subst hl'
      rw [if_pos rfl] at hi
      omega
    · rw [if_neg hl'] at hi
      omega

theorem materialize_goes {r : CohortRequest} {cohort : String} {m : Materialization}
    (hm : r.materialization cohort = .ok m) {seconds : Nat} (hz : seconds ≠ 0) (n : Nat) :
    ∃ t₁ t₂ t₃ s, (Store.materialize seconds r cohort).run.Talks [t₁, t₂, t₃] (some (.ok s)) ∧
      (((Step.execute m.clear).within seconds).Sends t₁.request ∧ t₁.reply = .rows .nothing none) ∧
      (((Step.execute m.insert).within seconds).Sends t₂.request ∧
        t₂.reply = .rows .nothing none) ∧
      ((Step.one Store.Table.numbers? m.count).within seconds).Sends t₃.request ∧
      t₃.reply = .rows (.numbers [n]) none := by
  obtain ⟨ts, hi, h⟩ := Store.serial_plays .silence
    [.rows .nothing none, .rows .nothing none, .rows (.numbers [n]) none]
    (Store.storing_steps_verbatim seconds cohort hm) (Store.materialize_serial seconds cohort hm)
  have cleared (t : Turn) (h : ts[0]? = some t) : t.reply = .rows .nothing none := hi 0 t h
  have inserted (t : Turn) (h : ts[1]? = some t) : t.reply = .rows .nothing none := hi 1 t h
  have counted (t : Turn) (h : ts[2]? = some t) : t.reply = .rows (.numbers [n]) none := hi 2 t h
  rcases h with ⟨⟨s, ht⟩, hp⟩ | ⟨_, before, s, rest, passed, t, hp, rfl, hb, hs, hg⟩
  · cases hp with
    | @cons _ t₁ _ _ h₁ hp =>
      cases hp with
      | @cons _ t₂ _ _ h₂ hp =>
        cases hp with
        | @cons _ t₃ _ _ h₃ hp =>
          cases hp
          exact ⟨t₁, t₂, t₃, s, ht, ⟨h₁.sends, cleared _ rfl⟩, ⟨h₂.sends, inserted _ rfl⟩,
            h₃.sends, counted _ rfl⟩
  · refine absurd ?_ hg
    rcases Store.storing_split hp with ⟨rfl, rfl, _⟩ | ⟨rfl, rfl, _⟩ | ⟨rfl, rfl, _⟩
    · cases hb
      exact ⟨hz, _, cleared t rfl⟩
    · obtain ⟨_, rfl, _⟩ := (Store.passes_single _ _).mp hb
      exact ⟨hz, _, inserted t rfl⟩
    · cases hb with
      | cons _ hb =>
        obtain ⟨_, rfl, _⟩ := (Store.passes_single _ _).mp hb
        exact ⟨hz, _, _, none, counted t rfl, rfl, by simp⟩

theorem person_lowers {allowed : AllowList} {stop : Sql.Moment} {room n : Nat} {j : Junction}
    {x : PersonCondition} {p : Predicate} {vs : Literals}
    (h : NodeLowers allowed stop room n (.group j [.leaf (.person x)]) p vs) :
    ∃ key t, key.text = x.property ∧ TestLowers x.property x.operand n x.operator t vs ∧
      p = .group j [.leaf (.property ⟨.person, key⟩ t)] := by
  cases h with
  | group j h =>
    cases h with
    | cons h hr =>
      cases hr
      cases h with
      | leaf h =>
        cases h with
        | person hk ht => exact ⟨_, _, check_text hk, by simpa using ht, rfl⟩

theorem person_persons {r : CohortRequest} {q : Query} {u : Uuid} {j : Junction}
    {x : PersonCondition} (hu : Uuid.read (Text.trim r.projectId) = some u)
    (hq : r.listing = .ok q) (hd : r.definition = ⟨j, [.leaf (.person x)]⟩)
    (E : Engine) (tables : Tables) (id : String) :
    id ∈ q.persons E tables ↔ ∃ e ∈ tables.events, e.project = u.render ∧ e.distinctId = id ∧
      x.operator.holds E e.personProperties x.property x.operand = true := by
  obtain ⟨b, p, c, hb, hy, rfl⟩ := (request_listing r q).mp hq
  obtain ⟨w, hc⟩ := yields_compiled hb hy
  obtain rfl : u = w := Option.some.inj (hu.symm.trans hc.project)
  obtain ⟨vs, hl, rfl⟩ := (yields_node r.allowed Limits.depth r.definition.root b c p).mp hy
  rw [hd] at hl
  obtain ⟨key, t, hk, ht, rfl⟩ := person_lowers hl
  have truth (e : Store.Event) :
      (Predicate.typed (.group j [.leaf (.property ⟨.person, key⟩ t)])).value
      (Sql.Test.truth E (b.bindAll vs).params tables e) = some true ↔
        x.operator.holds E e.personProperties x.property x.operand = true := by
    have hv : (Predicate.typed (.group j [.leaf (.property ⟨.person, key⟩ t)])).value
        (Sql.Test.truth E (b.bindAll vs).params tables e) =
          t.truth E (b.bindAll vs).params e.personProperties key.text := by
      cases j <;> rfl
    rw [hv, hk]
    exact test_truth ht (Bindings.bind_all_has b vs) e.personProperties
  simp only [mem_persons hc, truth]

def planRequest (others : Bool) : CohortRequest where
  projectId := "6f1c2b8e-3d4a-4e5f-8a9b-0c1d2e3f4a5b"
  definition := ⟨.and, [.leaf (.person ⟨"plan", .equals others, some (.text "pro")⟩)]⟩
  dateTo := none
  allowed := .ofNames ["plan"]

def planTables : Tables where
  events := [("ann", "\x7b\"plan\":\"pro\"\x7d"), ("bob", "")].map fun (id, properties) =>
    ⟨"6f1c2b8e-3d4a-4e5f-8a9b-0c1d2e3f4a5b", "login", "track", id, "", properties, 0⟩
  members := []

theorem plan_compiled (others : Bool) : ∃ u p c,
    u.render = "6f1c2b8e-3d4a-4e5f-8a9b-0c1d2e3f4a5b" ∧ Compiled (planRequest others) u p c ∧
    (planRequest others).listing = .ok (c.finish (listingSelect p).render) ∧
    (planRequest others).materialization "plan" =
      .ok (stored p (c.bindNamed cohortName (.text "plan")).2) := by
  obtain ⟨b, hb⟩ : ∃ b, Bindings.start vipRequest.projectId none = .ok b :=
    start_exists (Uuid.grouped_known (by decide)) (by simp)
  obtain ⟨p, c, hy⟩ : ∃ p c,
      ((planRequest others).definition.compile (planRequest others).allowed).Yields b p c := by
    cases others
    · exact ⟨_, _, rfl⟩
    · exact ⟨_, _, rfl⟩
  obtain ⟨u, hc⟩ := yields_compiled (r := planRequest others) hb hy
  obtain ⟨v, hv, hr⟩ := Option.map_eq_some_iff.mp vip_project
  obtain rfl : u = v := Option.some.inj (hc.project.symm.trans hv)
  exact ⟨u, p, c, hr, hc, (request_listing _ _).mpr ⟨b, p, c, hb, hy, rfl⟩,
    (request_materialization _ _ _).mpr ⟨by decide, b, p, c, hb, hy, rfl⟩⟩

theorem plan_persons (others : Bool) {q : Query} {u : Uuid}
    (hu : Uuid.read (Text.trim (planRequest others).projectId) = some u)
    (hq : (planRequest others).listing = .ok q) (now : Int) {tables : Tables}
    (ht : tables.events = planTables.events) (id : String) :
    id ∈ q.persons { noonEngine with now } tables ↔ id = if others then "bob" else "ann" := by
  have hr : u.render = "6f1c2b8e-3d4a-4e5f-8a9b-0c1d2e3f4a5b" := by
    obtain ⟨v, hv, hr⟩ := Option.map_eq_some_iff.mp vip_project
    obtain rfl : u = v := Option.some.inj (hu.symm.trans hv)
    exact hr
  rw [person_persons hu hq rfl, ht]
  cases others <;>
    simp [planTables, hr, PropertyOperator.holds, Scalar.ofOperand, Scalar.isValueOf, noonEngine,
      eq_comm (b := id)]

theorem plan_run : ∃ (u : Uuid) (turns : List (Bool × Turn)) (results : Bool → StoredCohort)
    (left : Tables), (∀ others, Uuid.read (Text.trim (planRequest others).projectId) = some u) ∧
    Store.Together noonEngine (fun others => Store.materialize 30 (planRequest others) "plan")
      planTables turns results left ∧
    ∀ id, ⟨u.render, "plan", id⟩ ∈ left.members ↔ id = "ann" ∨ id = "bob" := by
  obtain ⟨u, p, c, _, hc, hq, hm⟩ := plan_compiled false
  obtain ⟨v, p', c', _, hc', hq', hm'⟩ := plan_compiled true
  obtain rfl : u = v := Option.some.inj (hc.project.symm.trans hc'.project)
  let cleared := (planTables.without u.render "plan").without u.render "plan"
  let mixed := cleared.storing u.render "plan"
    ((c.finish (listingSelect p).render).persons noonEngine cleared)
  let left := mixed.storing u.render "plan"
    ((c'.finish (listingSelect p').render).persons noonEngine mixed)
  obtain ⟨t₁, t₂, t₃, s, ht, ⟨hs₁, hr₁⟩, ⟨hs₂, hr₂⟩, hs₃, hr₃⟩ :=
    materialize_goes hm (by decide : 30 ≠ 0) (mixed.cohortRows u.render "plan").dedup.length
  obtain ⟨t₁', t₂', t₃', s', ht', ⟨hs₁', hr₁'⟩, ⟨hs₂', hr₂'⟩, hs₃', hr₃'⟩ :=
    materialize_goes hm' (by decide : 30 ≠ 0) (left.cohortRows u.render "plan").dedup.length
  refine ⟨u, [(false, t₁), (true, t₁'), (false, t₂), (false, t₃), (true, t₂'), (true, t₃')],
    fun others => if others then s' else s, left, fun others => ?_, ⟨fun others => ?_, ?_⟩,
    fun id => ?_⟩
  · cases others
    · exact hc.project
    · exact hc'.project
  · cases others
    · exact ht
    · exact ht'
  · exact ⟨_, .cons (clear_served hc "plan" hs₁ rfl hr₁) <|
      .cons (clear_served hc' "plan" hs₁' rfl hr₁') <|
      .cons (insert_served hc "plan" hs₂ rfl hr₂) <|
      .cons (count_served hc "plan" hs₃ rfl hr₃) <|
      .cons (insert_served hc' "plan" hs₂' rfl hr₂') <|
      .cons (count_served hc' "plan" hs₃' rfl hr₃') <| .nil _⟩
  · have hcleared : cleared.events = planTables.events := rfl
    have hmixed : mixed.events = planTables.events := rfl
    rw [mem_storing, mem_storing, or_iff_right (not_mem_without _ _ _ _)]
    exact or_congr (plan_persons false hc.project hq noonEngine.now hcleared id)
      (plan_persons true hc'.project hq' noonEngine.now hmixed id)

theorem plan_free (others : Bool) : ¬(planRequest others).definition.AsksFor "plan" := by
  rintro ⟨c, hc, _⟩
  have hl : (planRequest others).definition.root.leaves =
      [.person ⟨"plan", .equals others, some (.text "pro")⟩] := rfl
  rw [hl, List.mem_singleton] at hc
  cases hc

theorem plans_together : ∃ (u : Uuid) (turns : List (Bool × Turn)) (results : Bool → StoredCohort)
    (left : Tables), (∀ others, Uuid.read (Text.trim (planRequest others).projectId) = some u) ∧
    (∀ others, ¬(planRequest others).definition.AsksFor "plan") ∧
    Store.Together noonEngine (fun others => Store.materialize 30 (planRequest others) "plan")
      planTables turns results left ∧
    left.without u.render "plan" = planTables.without u.render "plan" ∧
    ∃ (before : List (Bool × Turn)) (last : Bool) (t : Turn) (behind : List (Bool × Turn)),
      turns = before ++ (last, t) :: behind ∧ Store.own last before = [] ∧
      Store.own (!last) before ≠ [] ∧
      ∀ id, ⟨u.render, "plan", id⟩ ∈ left.members ↔ ∃ others,
        (Store.own others before).length < 2 ∧ id = if others then "bob" else "ann" := by
  obtain ⟨u, turns, results, left, hu, h, _⟩ := plan_run
  obtain ⟨hw, q, now, before, last, t, behind, hq, rfl, hb, ho, hm⟩ :=
    materialize_together noonEngine (fun _ => 30) planRequest "plan" u hu plan_free planTables left
      turns results h
  refine ⟨u, _, results, left, hu, plan_free, h, hw, before, last, t, behind, rfl, hb,
    ho _ (by simp), fun id =>
      (hm id).trans (exists_congr fun others => and_congr_right fun _ => ?_)⟩
  exact plan_persons others (hu others) (hq others) (now others) rfl id

/-- What is stored are the members of both definitions, and each of them has only one. -/
theorem plans_mixed : ∃ (u : Uuid) (turns : List (Bool × Turn)) (results : Bool → StoredCohort)
    (left : Tables), (∀ others, Uuid.read (Text.trim (planRequest others).projectId) = some u) ∧
    (∀ others, ¬(planRequest others).definition.AsksFor "plan") ∧
    Store.Together noonEngine (fun others => Store.materialize 30 (planRequest others) "plan")
      planTables turns results left ∧
    ∀ (others : Bool) (q : Query) (now : Int), (planRequest others).listing = .ok q →
      ¬∀ id, ⟨u.render, "plan", id⟩ ∈ left.members ↔
        id ∈ q.persons { noonEngine with now } planTables := by
  obtain ⟨u, turns, results, left, hu, h, hm⟩ := plan_run
  refine ⟨u, turns, results, left, hu, plan_free, h, fun others q now hq hall => ?_⟩
  have hid (id : String) : (id = "ann" ∨ id = "bob") ↔ id = if others then "bob" else "ann" :=
    (hm id).symm.trans ((hall id).trans (plan_persons others (hu others) hq now rfl id))
  cases others
  · exact absurd ((hid "bob").mp (.inr rfl)) (by decide)
  · exact absurd ((hid "ann").mp (.inl rfl)) (by decide)

end CohortQuery
