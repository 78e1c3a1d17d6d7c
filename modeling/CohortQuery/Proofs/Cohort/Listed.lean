import CohortQuery.Proofs.Cohort.Materialize

/-!
# The rows of a listing

A listing gives pairs: a distinct id, and the person to whom its events belong. The person is
looked up for every event, first among the overrides and then on the event itself, and equal
pairs become one row. So a distinct id whose events were stamped with different persons has a
row for each of them, unless an override says to whom they all belong.
-/

set_option autoImplicit false

namespace CohortQuery

namespace Store

/-- An event together with the person whom it was stamped with when it came. -/
structure Stamped extends Event where
  person : String
  deriving DecidableEq

/-- The tables with the stamps of their events, and the overrides: to whom a distinct id of a
project belongs, if it was merged into another person. -/
structure Census where
  events : List Stamped
  members : List Membership
  override : String → String → Option String

namespace Census

variable (c : Census)

def tables : Tables :=
  ⟨c.events.map Stamped.toEvent, c.members⟩

def person (e : Stamped) : String :=
  (c.override e.project e.distinctId).getD e.person

end Census

end Store

open Store (Census CohortRequest Engine Event Executes Stamped Table Tables)

namespace Sql

inductive Lookout where
  | stamp
  | override

def Lookout.value (c : Census) (e : Stamped) : Lookout → Option String
  | stamp => some e.person
  | override => c.override e.project e.distinctId

def Lookout.read? : List Sign → Option (Lookout × List Sign)
  | .name "person_id" :: rest => some (stamp, rest)
  | .name "dictGetOrNull" :: .mark '(' :: .text "person_overrides_dict" :: .mark ',' ::
      .text "person_id" :: .mark ',' :: .mark '(' :: .name "project_id" :: .mark ',' ::
      .name "distinct_id" :: .mark ')' :: .mark ')' :: rest => some (override, rest)
  | _ => none

structure Coalesced where
  first : Lookout
  second : Lookout

def Coalesced.value (p : Coalesced) (c : Census) (e : Stamped) : Option String :=
  p.first.value c e <|> p.second.value c e

def Coalesced.ofSigns? : List Sign → Option Coalesced
  | .name "coalesce" :: .mark '(' :: ss =>
    match Lookout.read? ss with
    | some (first, .mark ',' :: rest) =>
      match Lookout.read? rest with
      | some (second, [.mark ')', .name "AS", .name "resolved_person_id"]) => some ⟨first, second⟩
      | _ => none
    | _ => none
  | _ => none

/-- Gives the distinct id and the person of every event that satisfies the condition. -/
structure Listing where
  person : Coalesced
  condition : Formula Test

namespace Listing

def ofClauses? (c : Clauses) : Option Listing :=
  match c with
  | ⟨.name "DISTINCT" :: .name "distinct_id" :: .mark ',' :: person,
      some [.name "events", .name "FINAL"], some φ, none, none,
      some [.name "BY", .name "distinct_id"], none, none⟩ => do
    return ⟨← Coalesced.ofSigns? person, ← φ.traverse Test.ofItems?⟩
  | _ => none

def ofItems? : List Item → Option Listing
  | [] => none
  | i :: scope => if i.isWord "SELECT" then (Clauses.ofScope? scope).bind ofClauses? else none

def read (s : String) : Option Listing :=
  (Sql.read s).bind ofItems?

section

variable (l : Listing) (E : Engine) (params : Params) (c : Census)

def found : List Stamped :=
  c.events.filter fun e => l.condition.value (Test.truth E params c.tables e.toEvent) = some true

/-- The store may answer with these rows. Rows of one distinct id come in any order. -/
structure Gives (rows : List (String × Option String)) : Prop where
  perm : rows.Perm ((l.found E params c).map fun e => (e.distinctId, l.person.value c e)).dedup
  sorted : rows.Pairwise fun r s => r.1 ≤ s.1

/-- The events of the distinct id that are found belong to one person of the project: there is an
override for it, or they were all stamped alike. -/
def Undivided (project id : String) : Prop :=
  (c.override project id).isSome ∨ ∀ e ∈ l.found E params c, ∀ f ∈ l.found E params c,
    e.distinctId = id → f.distinctId = id → e.person = f.person

/-- What rows say of the persons of a project who are known by the distinct ids `ids`. -/
structure Names (project : String) (ids : List String) (rows : List (String × Option String)) :
    Prop where
  distinct : rows.Nodup
  pairs : ∀ id person, (id, person) ∈ rows ↔
    ∃ e ∈ l.found E params c, e.distinctId = id ∧ some (c.person e) = person
  named : ∀ id, id ∈ rows.map Prod.fst ↔ id ∈ ids
  once : ∀ id ∈ ids, rows.countP (fun r => r.1 = id) = 1 ↔ l.Undivided E params c project id
  atLeast : ids.length ≤ rows.length
  number : rows.length = ids.length ↔ ∀ id ∈ ids, l.Undivided E params c project id

end

end Listing

theorem coalesced_read : Coalesced.ofSigns? resolvedSigns = some ⟨.override, .stamp⟩ := rfl

theorem coalesced_person (c : Census) (e : Stamped) :
    Coalesced.value ⟨.override, .stamp⟩ c e = some (c.person e) := by
  simp only [Coalesced.value, Lookout.value, Census.person]
  cases c.override e.project e.distinctId <;> rfl

theorem keys_length {keys ids : List String} (hd : ids.Nodup) (hm : ∀ id, id ∈ keys ↔ id ∈ ids) :
    ids.length ≤ keys.length ∧ (keys.length = ids.length ↔ keys.Nodup) := by
  have hp : ids.Perm keys.dedup :=
    (List.perm_ext_iff_of_nodup hd (List.nodup_dedup keys)).mpr fun id => by
      rw [List.mem_dedup, hm]
  have hs := List.dedup_sublist keys
  rw [hp.length_eq]
  refine ⟨hs.length_le, fun h => ?_, fun h => by rw [h.dedup]⟩
  rw [← hs.eq_of_length h.symm]
  exact List.nodup_dedup keys

namespace Listing

section

variable {l : Listing} {E : Engine} {params : Params} {c : Census}

theorem gives_exists (l : Listing) (E : Engine) (params : Params) (c : Census) :
    ∃ rows, l.Gives E params c rows := by
  let sooner (r s : String × Option String) : Bool := r.1 ≤ s.1
  let pairs := ((l.found E params c).map fun e => (e.distinctId, l.person.value c e)).dedup
  have hs : (pairs.mergeSort sooner).Pairwise fun r s => sooner r s = true := by
    refine List.pairwise_mergeSort (fun r s t hr hs => ?_) (fun r s => ?_) pairs
    · exact decide_eq_true (String.le_trans (of_decide_eq_true hr) (of_decide_eq_true hs))
    · simpa [sooner] using String.le_total r.1 s.1
  exact ⟨_, List.mergeSort_perm _ _, hs.imp of_decide_eq_true⟩

theorem found_ids (l : Listing) (E : Engine) (params : Params) (c : Census) :
    ((l.found E params c).map fun e => e.distinctId) =
      (selected E params c.tables l.condition).map Event.distinctId := by
  rw [selected, Census.tables, List.filter_map, List.map_map]
  rfl

variable {project : String} (hp : ∀ e ∈ l.found E params c, e.project = project)

include hp

/-- Events of one distinct id and one project have the same override. -/
theorem undivided_persons (id : String) : l.Undivided E params c project id ↔
    ∀ e ∈ l.found E params c, ∀ f ∈ l.found E params c, e.distinctId = id → f.distinctId = id →
      c.person e = c.person f := by
  have person {e : Stamped} (he : e ∈ l.found E params c) (hi : e.distinctId = id) :
      c.person e = (c.override project id).getD e.person := by
    rw [Census.person, hp e he, hi]
  constructor
  · intro hu e he f hf hi hj
    rw [person he hi, person hf hj]
    rcases hu with ho | hs
    · obtain ⟨s, hs⟩ := Option.isSome_iff_exists.mp ho
      rw [hs]
      rfl
    · rw [hs e he f hf hi hj]
  · intro hu
    cases ho : c.override project id with
    | some s => exact .inl (ho ▸ rfl)
    | none =>
      refine .inr fun e he f hf hi hj => ?_
      have hs := hu e he f hf hi hj
      rw [person he hi, person hf hj, ho] at hs
      exact hs

variable (hl : l.person = ⟨.override, .stamp⟩) {rows : List (String × Option String)}
  (hg : l.Gives E params c rows)

omit hp

include hg in
theorem rows_distinct : rows.Nodup :=
  hg.perm.nodup_iff.mpr (List.nodup_dedup _)

include hl hg

theorem mem_rows (id : String) (person : Option String) : (id, person) ∈ rows ↔
    ∃ e ∈ l.found E params c, e.distinctId = id ∧ some (c.person e) = person := by
  simp only [hg.perm.mem_iff, List.mem_dedup, List.mem_map, hl, coalesced_person, Prod.mk.injEq]

theorem mem_keys (id : String) : id ∈ rows.map Prod.fst ↔
    ∃ e ∈ l.found E params c, e.distinctId = id := by
  simp only [List.mem_map, Prod.exists, exists_and_right, exists_eq_right, mem_rows hl hg]
  constructor
  · rintro ⟨_, e, he, hi, _⟩
    exact ⟨e, he, hi⟩
  · rintro ⟨e, he, hi⟩
    exact ⟨_, e, he, hi, rfl⟩

include hp

theorem rows_once {id : String} (hi : ∃ e ∈ l.found E params c, e.distinctId = id) :
    rows.countP (fun r => r.1 = id) = 1 ↔ l.Undivided E params c project id := by
  obtain ⟨e, he, hi⟩ := hi
  have hd := (rows_distinct hg).filter fun r => decide (r.1 = id)
  have hm (f : Stamped) (hf : f ∈ l.found E params c) (hj : f.distinctId = id) :
      (id, some (c.person f)) ∈ rows.filter fun r => decide (r.1 = id) :=
    List.mem_filter.mpr ⟨(mem_rows hl hg _ _).mpr ⟨f, hf, hj, rfl⟩, decide_eq_true rfl⟩
  rw [undivided_persons hp, List.countP_eq_length_filter]
  constructor
  · intro hone f hf g hg hj hk
    obtain ⟨r, hr⟩ := List.length_eq_one_iff.mp hone
    have hs := List.mem_singleton.mp (hr ▸ hm f hf hj)
    have ht := List.mem_singleton.mp (hr ▸ hm g hg hk)
    exact Option.some.inj (congrArg Prod.snd (hs.trans ht.symm))
  · intro hu
    have hs : (rows.filter fun r => decide (r.1 = id)).Perm [(id, some (c.person e))] := by
      refine (List.perm_ext_iff_of_nodup hd (List.nodup_singleton _)).mpr fun r => ?_
      rw [List.mem_singleton]
      constructor
      · intro hr
        obtain ⟨hr, hk⟩ := List.mem_filter.mp hr
        obtain ⟨f, hf, hj, hv⟩ := (mem_rows hl hg r.1 r.2).mp hr
        have hk := of_decide_eq_true hk
        rw [hu e he f hf hi (hj.trans hk), hv, ← hk]
      · rintro rfl
        exact hm e he hi
    exact hs.length_eq

theorem gives_names {ids : List String} (hd : ids.Nodup)
    (hi : ∀ id, id ∈ ids ↔ ∃ e ∈ l.found E params c, e.distinctId = id) :
    l.Names E params c project ids rows := by
  have hk (id : String) : id ∈ rows.map Prod.fst ↔ id ∈ ids := by
    rw [mem_keys hl hg, hi]
  have once (id : String) (h : id ∈ ids) := rows_once hp hl hg ((hi id).mp h)
  obtain ⟨hle, hn⟩ := keys_length hd hk
  rw [List.length_map] at hle hn
  refine ⟨rows_distinct hg, mem_rows hl hg, hk, once, hle, hn.trans ?_⟩
  rw [List.nodup_iff_count_eq_one]
  simp only [hk, List.count, List.countP_map]
  exact forall₂_congr once

end

end Listing

end Sql

open Sql (Listing Predicate Statement)

def listingOf (p : Predicate) : Listing :=
  ⟨⟨.override, .stamp⟩, restrictedTo p⟩

theorem listing_clauses_read (person : List Sql.Sign)
    (φ : Sql.Formula (List Sql.Item)) :
    Listing.ofClauses? ⟨.name "DISTINCT" :: .name "distinct_id" :: .mark ',' :: person,
      some [.name "events", .name "FINAL"], some φ, none, none,
      some [.name "BY", .name "distinct_id"], none, none⟩ =
      (Sql.Coalesced.ofSigns? person).bind fun value =>
        (φ.traverse Sql.Test.ofItems?).bind fun condition => some ⟨value, condition⟩ :=
  rfl

theorem listing_given {p : Predicate} (hp : p.Proper) (hf : ∀ f ∈ p.leaves, f.Full) :
    Listing.read (listingSelect p).render = some (listingOf p) := by
  have hc := listing_clauses hp
  have ht := restricted_typed hp hf
  have hr := Sql.read_reads (restricted_text listing_open hp)
  have hs : (Sql.word "SELECT").isWord "SELECT" = true := rfl
  rw [← listing_restricted] at hr
  rw [Listing.read, hr, Option.bind_some, Sql.Select.items, Listing.ofItems?, if_pos hs, hc,
    Option.bind_some, listing_clauses_read, Sql.coalesced_read, Option.bind_some, ht]
  rfl

section

variable {r : CohortRequest} {u : Uuid} {p : Predicate} {b : Bindings} (h : Compiled r u p b)

include h

theorem mem_found (E : Engine) (c : Census) (e : Stamped) :
    e ∈ (listingOf p).found E b.params c ↔
      e ∈ c.events ∧ e.project = u.render ∧
        p.typed.value (Sql.Test.truth E b.params c.tables e.toEvent) = some true := by
  simp only [Listing.found, listingOf, List.mem_filter, decide_eq_true_eq, restricted_true h]

theorem found_persons (E : Engine) (c : Census) :
    (b.finish (listingSelect p).render).persons E c.tables =
      (((listingOf p).found E b.params c).map fun e => e.distinctId).dedup := by
  rw [listing_persons h, Listing.found_ids]
  rfl

theorem given_names (E : Engine) (c : Census) {rows : List (String × Option String)}
    (hg : (listingOf p).Gives E b.params c rows) :
    (listingOf p).Names E b.params c u.render
      ((b.finish (listingSelect p).render).persons E c.tables) rows := by
  have hs := found_persons h E c
  refine Listing.gives_names (fun e he => ((mem_found h E c e).mp he).2.1) rfl hg
    (hs ▸ List.nodup_dedup _) fun id => ?_
  rw [hs, List.mem_dedup, List.mem_map]

end

/-- A listing names every person of its definition, those who are stored if it is materialized.
A distinct id comes once just if there is an override for it or its events were all stamped
alike; otherwise it comes once for each person. -/
theorem persons_listed (r : CohortRequest) (q : Query) (hq : r.listing = .ok q) :
    ∃ (u : Uuid) (l : Listing), Uuid.read (Text.trim r.projectId) = some u ∧
      Listing.read q.sql = some l ∧ ∀ (E : Engine) (c : Census),
        (∀ e ∈ l.found E q.params c, e.project = u.render) ∧
        (∃ rows, l.Gives E q.params c rows) ∧
        (∀ rows, l.Gives E q.params c rows →
          l.Names E q.params c u.render (q.persons E c.tables) rows) ∧
        ∀ cohort, Text.isBlankText cohort = false → ∃ m st, r.materialization cohort = .ok m ∧
          Statement.read m.insert.sql = some st ∧ ∀ left t,
            Executes E m.insert.params c.tables st left t ↔
              left = c.tables.storing u.render cohort (q.persons E c.tables) ∧ t = .nothing := by
  obtain ⟨b, p, k, hb, hy, rfl⟩ := (request_listing r q).mp hq
  obtain ⟨u, h⟩ := yields_compiled hb hy
  refine ⟨u, _, h.project, listing_given h.proper h.full, fun E c =>
    ⟨fun e he => ((mem_found h E c e).mp he).2.1, Listing.gives_exists _ _ _ _,
      fun rows hg => given_names h E c hg, fun cohort hc => ?_⟩⟩
  exact ⟨_, _, (request_materialization r cohort _).mpr ⟨hc, b, p, k, hb, hy, rfl⟩,
    insert_read h.proper h.full, insert_executes h cohort E c.tables⟩

def everyone : CohortRequest where
  projectId := "6f1c2b8e-3d4a-4e5f-8a9b-0c1d2e3f4a5b"
  definition := ⟨.and, []⟩
  dateTo := none
  allowed := .ofNames []

def twoStamps (override : String → String → Option String) : Census where
  events := [
    ⟨⟨"6f1c2b8e-3d4a-4e5f-8a9b-0c1d2e3f4a5b", "visit", "track", "ann", "", "", 0⟩, "p1"⟩,
    ⟨⟨"6f1c2b8e-3d4a-4e5f-8a9b-0c1d2e3f4a5b", "login", "track", "ann", "", "", 1⟩, "p2"⟩]
  members := []
  override := override

def unmerged : Census :=
  twoStamps fun _ _ => none

def merged : Census :=
  twoStamps fun _ _ => some "p2"

theorem everyone_project : (Uuid.read (Text.trim everyone.projectId)).map Uuid.render =
    some "6f1c2b8e-3d4a-4e5f-8a9b-0c1d2e3f4a5b" :=
  Uuid.grouped_render rfl

theorem everyone_compiled : ∃ u b, Compiled everyone u (.group .and []) b ∧
    u.render = "6f1c2b8e-3d4a-4e5f-8a9b-0c1d2e3f4a5b" ∧
    Bindings.start everyone.projectId everyone.dateTo = .ok b ∧
    (everyone.definition.compile everyone.allowed).Yields b (.group .and []) b := by
  obtain ⟨b, hb⟩ : ∃ b, Bindings.start everyone.projectId none = .ok b :=
    start_exists (Uuid.grouped_known (by decide)) (by simp)
  have hy : (everyone.definition.compile everyone.allowed).Yields b (.group .and []) b := rfl
  obtain ⟨u, h⟩ := yields_compiled hb hy
  have hr := everyone_project
  rw [h.project] at hr
  exact ⟨u, b, h, Option.some.inj hr, hb, hy⟩

section

variable {u : Uuid} {b : Bindings} (h : Compiled everyone u (.group .and []) b)
  (hu : u.render = "6f1c2b8e-3d4a-4e5f-8a9b-0c1d2e3f4a5b")
  (override : String → String → Option String)

include h hu

theorem two_stamps_found (E : Engine) :
    (listingOf (.group .and [])).found E b.params (twoStamps override) =
      (twoStamps override).events := by
  have hp : ∀ e ∈ (twoStamps override).events, e.project = u.render := by
    simp [twoStamps, hu]
  exact List.filter_eq_self.mpr fun e he =>
    (List.mem_filter.mp ((mem_found h E _ e).mpr ⟨he, hp e he, rfl⟩)).2

theorem two_stamps_persons (E : Engine) :
    (b.finish (listingSelect (.group .and [])).render).persons E (twoStamps override).tables =
      ["ann"] := by
  rw [found_persons h, two_stamps_found h hu]
  rfl

theorem two_stamps_gives (E : Engine) (rows : List (String × Option String))
    (hr : rows = ((twoStamps override).events.map fun e =>
      (e.distinctId, some ((twoStamps override).person e))).dedup)
    (hs : rows.Pairwise fun r s => r.1 ≤ s.1) :
    (listingOf (.group .and [])).Gives E b.params (twoStamps override) rows := by
  have hv (e : Stamped) : (listingOf (.group .and [])).person.value (twoStamps override) e =
      some ((twoStamps override).person e) := Sql.coalesced_person _ e
  refine ⟨?_, hs⟩
  simp only [two_stamps_found h hu, hv, hr, List.Perm.refl]

end

/-- With an override, the distinct id is listed once, as the person to whom it leads. -/
theorem merged_once : ∃ (u : Uuid) (q : Query) (l : Listing), everyone.listing = .ok q ∧
    Listing.read q.sql = some l ∧ l.Gives noonEngine q.params merged [("ann", some "p2")] ∧
    l.Names noonEngine q.params merged u.render
      (q.persons noonEngine merged.tables) [("ann", some "p2")] ∧
    q.persons noonEngine merged.tables = ["ann"] := by
  obtain ⟨u, b, h, hu, hb, hy⟩ := everyone_compiled
  have hq := (request_listing everyone _).mpr ⟨b, _, b, hb, hy, rfl⟩
  obtain ⟨w, l, hw, hl, hall⟩ := persons_listed everyone _ hq
  obtain ⟨_, _, hnames, _⟩ := hall noonEngine merged
  obtain rfl := Option.some.inj (hl.symm.trans (listing_given h.proper h.full))
  have hg := two_stamps_gives h hu (fun _ _ => some "p2") noonEngine [("ann", some "p2")]
    (by decide) (List.pairwise_singleton _ _)
  exact ⟨w, _, _, hq, hl, hg, hnames _ hg, two_stamps_persons h hu _ noonEngine⟩

/-- Without one, it is listed twice but stored once. -/
theorem unmerged_twice : ∃ (q : Query) (l : Listing), everyone.listing = .ok q ∧
    Listing.read q.sql = some l ∧
    l.Gives noonEngine q.params unmerged [("ann", some "p1"), ("ann", some "p2")] ∧
    "ann" ∈ q.persons noonEngine unmerged.tables ∧
    ∃ m st, everyone.materialization "all" = .ok m ∧ Statement.read m.insert.sql = some st ∧
      ∀ left t, Executes noonEngine m.insert.params unmerged.tables st left t ↔
        left = { unmerged.tables with
          members := [⟨"6f1c2b8e-3d4a-4e5f-8a9b-0c1d2e3f4a5b", "all", "ann"⟩] } ∧
            t = .nothing := by
  obtain ⟨u, b, h, hu, hb, hy⟩ := everyone_compiled
  have hp : (b.finish (listingSelect (.group .and [])).render).persons noonEngine
      unmerged.tables = ["ann"] := two_stamps_persons h hu (fun _ _ => none) noonEngine
  refine ⟨_, _, (request_listing everyone _).mpr ⟨b, _, b, hb, hy, rfl⟩,
    listing_given h.proper h.full, ?_, ?_, _, _,
    (request_materialization everyone "all" _).mpr ⟨by decide, b, _, b, hb, hy, rfl⟩,
    insert_read h.proper h.full, fun left t => ?_⟩
  · exact two_stamps_gives h hu _ noonEngine _ (by decide) (by decide)
  · rw [hp]
    exact List.mem_singleton_self _
  · have he := insert_executes h "all" noonEngine unmerged.tables left t
    rw [hp, hu] at he
    exact he

end CohortQuery
