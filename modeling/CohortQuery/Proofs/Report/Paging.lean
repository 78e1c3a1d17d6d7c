import CohortQuery.Proofs.Cohort.Behaviour
import CohortQuery.Proofs.Report.Listing

/-!
# Events page by page

Each page is asked for by a statement of its own, for which the store may order events of one
time anew. Put end to end, the pages have the times of all events in order. An event comes
exactly once unless a boundary between two pages lies among the events of its time.
-/

set_option autoImplicit false

namespace CohortQuery.Report

open Sql (Page TimeOrder)
open Store (Engine Recorded)

def times (rows : List Recorded) : List Int :=
  rows.map fun r => r.millis

theorem times_append (a b : List Recorded) : times (a ++ b) = times a ++ times b :=
  List.map_append

section

variable {rows a b : List Recorded}

theorem arranged_exists (rows : List Recorded) :
    ∃ a, TimeOrder.newestFirst.Arranges rows a := by
  let sooner (r s : Recorded) : Bool := s.millis ≤ r.millis
  have hs : (rows.mergeSort sooner).Pairwise fun r s => sooner r s = true := by
    refine List.pairwise_mergeSort (fun r s t hr hs => ?_) (fun r s => ?_) rows
    · exact decide_eq_true ((of_decide_eq_true hs).trans (of_decide_eq_true hr))
    · simpa [sooner] using Int.le_total s.millis r.millis
  exact ⟨_, List.mergeSort_perm _ _, hs.imp of_decide_eq_true⟩

theorem times_sorted (ha : TimeOrder.newestFirst.Arranges rows a) :
    (times a).Pairwise (· ≥ ·) :=
  List.pairwise_map.mpr ha.sorted

theorem times_perm (ha : TimeOrder.newestFirst.Arranges rows a) :
    (times a).Perm (times rows) :=
  ha.perm.map _

theorem times_agree (ha : TimeOrder.newestFirst.Arranges rows a)
    (hb : TimeOrder.newestFirst.Arranges rows b) : times a = times b :=
  List.Perm.eq_of_pairwise (fun _ _ _ _ h k => Int.le_antisymm k h) (times_sorted ha)
    (times_sorted hb) ((times_perm ha).trans (times_perm hb).symm)

theorem arranges_times (ha : TimeOrder.newestFirst.Arranges rows a) (hp : b.Perm a)
    (ht : times b = times a) : TimeOrder.newestFirst.Arranges rows b := by
  refine ⟨hp.trans ha.perm, ?_⟩
  have hs := times_sorted ha
  rw [← ht, times, List.pairwise_map] at hs
  exact hs

theorem arranged_split (ha : a.Pairwise TimeOrder.newestFirst.Allows) (t : Int) :
    a = a.filter (fun r => t < r.millis) ++
      (a.filter (fun r => r.millis = t) ++ a.filter fun r => r.millis < t) := by
  induction a with
  | nil => rfl
  | cons r a ih =>
    obtain ⟨hr, ha⟩ := List.pairwise_cons.mp ha
    have older : ∀ s ∈ a, s.millis ≤ r.millis := hr
    have hi := ih ha
    rcases lt_trichotomy t r.millis with h | rfl | h
    · simpa [List.filter_cons, h, h.ne', h.not_gt] using hi
    · have hn : a.filter (fun s => r.millis < s.millis) = [] := by simpa using older
      rw [hn, List.nil_append] at hi
      simpa [List.filter_cons, hn] using hi
    · have hn : a.filter (fun s => t < s.millis) = [] := by
        simpa using fun s hs => (older s hs).trans h.le
      have he : a.filter (fun s => s.millis = t) = [] := by
        simpa using fun s hs => ((older s hs).trans_lt h).ne
      rw [hn, he, List.nil_append, List.nil_append] at hi
      simpa [List.filter_cons, h, h.ne, h.not_gt, hn, he] using hi

end

def newer (rows : List Recorded) (t : Int) : Nat :=
  rows.countP fun r => t < r.millis

def atTime (rows : List Recorded) (t : Int) : Nat :=
  rows.countP fun r => r.millis = t

/-- The events of the time are on one page, whatever their order. -/
def Undivided (size : Nat) (rows : List Recorded) (t : Int) : Prop :=
  ∀ k, k * size ≤ newer rows t ∨ newer rows t + atTime rows t ≤ k * size

theorem distinct_undivided {rows : List Recorded} (h : (times rows).Nodup) (size : Nat) (t : Int) :
    Undivided size rows t := by
  have hc : atTime rows t ≤ 1 := by
    have ht := List.nodup_iff_count_le_one.mp h t
    rwa [times, List.count, List.countP_map] at ht
  intro k
  omega

/-- What is known of the events of a time in an order of all of them. -/
structure Split (rows a : List Recorded) (t : Int) (before same after : List Recorded) : Prop where
  whole : a = before ++ (same ++ after)
  before_length : before.length = newer rows t
  same_length : same.length = atTime rows t
  same_times : ∀ r ∈ same, r.millis = t
  before_times : ∀ r ∈ before, r.millis ≠ t
  after_times : ∀ r ∈ after, r.millis ≠ t

theorem split_exists {rows a : List Recorded} (ha : TimeOrder.newestFirst.Arranges rows a)
    (t : Int) : ∃ before same after, Split rows a t before same after := by
  refine ⟨_, _, _, arranged_split ha.sorted t, ?_, ?_, ?_, ?_, ?_⟩
  · rw [← List.countP_eq_length_filter, ha.perm.countP_eq, newer]
  · rw [← List.countP_eq_length_filter, ha.perm.countP_eq, atTime]
  · simp
  · intro r hr
    have ht : t < r.millis := by simpa using (List.mem_filter.mp hr).2
    exact ht.ne'
  · intro r hr
    have ht : r.millis < t := by simpa using (List.mem_filter.mp hr).2
    exact ht.ne

theorem times_same {t : Int} {rows : List Recorded} (h : ∀ r ∈ rows, r.millis = t) :
    times rows = List.replicate rows.length t :=
  List.map_eq_replicate_iff.mpr h

theorem moved_arranges {rows a : List Recorded} (ha : TimeOrder.newestFirst.Arranges rows a)
    {t : Int} {before same after : List Recorded} {e : Recorded}
    (hs : Split rows a t before (e :: same) after) :
    TimeOrder.newestFirst.Arranges rows (before ++ same ++ e :: after) := by
  have ht : times (same ++ [e]) = times (e :: same) := by
    rw [times_same hs.same_times, times_same (t := t) fun r hr => hs.same_times r ?_]
    · simp
    · simpa [or_comm] using hr
  refine arranges_times ha ?_ ?_
  · rw [hs.whole, List.append_assoc]
    exact List.perm_middle.append_left before
  · rw [hs.whole, List.append_assoc, List.append_cons, times_append, times_append, ht,
      ← times_append, ← times_append]

/-- Which events of an undivided time are on the first pages does not depend on the order. -/
theorem count_before {rows a : List Recorded} (ha : TimeOrder.newestFirst.Arranges rows a)
    {size : Nat} {r : Recorded} (hu : Undivided size rows r.millis) (k : Nat) :
    (a.take (k * size)).count r = if k * size ≤ newer rows r.millis then 0 else rows.count r := by
  obtain ⟨x, y, z, hs⟩ := split_exists ha r.millis
  have hx : r ∉ x := fun h => hs.before_times r h rfl
  have hz : r ∉ z := fun h => hs.after_times r h rfl
  split
  · next h =>
    rw [hs.whole, List.take_append_of_le_length (hs.before_length.symm ▸ h)]
    exact List.count_eq_zero_of_not_mem fun h => hx (List.mem_of_mem_take h)
  · next h =>
    have hl : (x ++ y).length ≤ k * size := by
      rw [List.length_append, hs.before_length, hs.same_length]
      exact (hu k).resolve_left h
    have hc : (z.take (k * size - (x ++ y).length)).count r = 0 :=
      List.count_eq_zero_of_not_mem fun h => hz (List.mem_of_mem_take h)
    have ha : rows.count r = (x ++ y).count r := by
      rw [← ha.perm.count_eq, hs.whole, ← List.append_assoc, List.count_append,
        List.count_eq_zero_of_not_mem hz, Nat.add_zero]
    rw [ha, hs.whole, ← List.append_assoc, List.take_append, List.take_of_length_le hl,
      List.count_append, hc, Nat.add_zero]

section

variable (E : Engine) (projectId : String) (filter : Filter) (size : Nat) (rows : List Recorded)

/-- The first pages have been asked for one after the other, with `seen` for an answer. -/
inductive Paged : Nat → List Recorded → Prop where
  | start : Paged 0 []
  | next {n : Nat} {seen page : List Recorded} {q : Query} {p : Page} (before : Paged n seen)
    (asked : query projectId (.events size (n * size)) filter = .ok q)
    (read : Page.read q.sql = some p) (given : p.Gives E q.params rows page) :
    Paged (n + 1) (seen ++ page)

end

section

variable {E : Engine} {projectId : String} {u : Uuid} {filter : Filter}
  {bounds : Option String × Option String} {size : Nat} {rows : List Recorded}

def admitted (E : Engine) (u : Uuid) (filter : Filter) (bounds : Option String × Option String)
    (rows : List Recorded) : List Recorded :=
  rows.filter fun r => filter.admits E u.render bounds r.toEvent

theorem clamp_within {most n : Nat} (h : 1 ≤ n) (hm : n ≤ most) : clamp most n = n := by
  rw [clamp, Nat.min_eq_left hm, Nat.max_eq_right h]

variable (hu : Uuid.read (Text.trim projectId) = some u) (hr : filter.range = .ok bounds)
  (h : 1 ≤ size) (hm : size ≤ Limits.listedEvents)

include hu hr h hm

theorem paged_next (n : Nat) (all : List Recorded) :
    Paged E projectId filter size rows (n + 1) all ↔ ∃ seen a,
      Paged E projectId filter size rows n seen ∧
      TimeOrder.newestFirst.Arranges (admitted E u filter bounds rows) a ∧
      all = seen ++ (a.drop (n * size)).take size := by
  obtain ⟨q, p, hq, hp, hg⟩ := events_given hu hr size (n * size)
  simp only [clamp_within h hm] at hg
  constructor
  · intro hn
    cases hn with
    | next before asked read given =>
      obtain rfl := Except.ok.inj (hq.symm.trans asked)
      obtain rfl := Option.some.inj (hp.symm.trans read)
      obtain ⟨a, ha, rfl⟩ := (hg E rows _).mp given
      exact ⟨_, a, before, ha, rfl⟩
  · rintro ⟨seen, a, before, ha, rfl⟩
    exact .next before hq hp ((hg E rows _).mpr ⟨a, ha, rfl⟩)

theorem paged_subset {n : Nat} {seen : List Recorded}
    (hn : Paged E projectId filter size rows n seen) :
    seen ⊆ admitted E u filter bounds rows := by
  induction n generalizing seen with
  | zero =>
    cases hn
    exact List.nil_subset _
  | succ n ih =>
    obtain ⟨seen, a, before, ha, rfl⟩ := (paged_next hu hr h hm n _).mp hn
    refine List.append_subset.mpr ⟨ih before, fun r hr => ?_⟩
    exact ha.perm.subset (List.mem_of_mem_drop (List.mem_of_mem_take hr))

variable {a : List Recorded}
  (ha : TimeOrder.newestFirst.Arranges (admitted E u filter bounds rows) a)

theorem paged_agrees {α : Type} {f : List Recorded → α} {join : α → α → α}
    (hf : ∀ xs ys, f (xs ++ ys) = join (f xs) (f ys))
    (hb : ∀ b, TimeOrder.newestFirst.Arranges (admitted E u filter bounds rows) b →
      ∀ k, f (b.take (k * size)) = f (a.take (k * size)))
    {n : Nat} {seen : List Recorded} (hn : Paged E projectId filter size rows n seen) :
    f seen = f (a.take (n * size)) := by
  induction n generalizing seen with
  | zero =>
    cases hn
    rw [Nat.zero_mul, List.take_zero]
  | succ n ih =>
    obtain ⟨seen, b, before, hs, rfl⟩ := (paged_next hu hr h hm n _).mp hn
    rw [hf, ih before, ← hb b hs, ← hf, ← List.take_add, ← Nat.succ_mul, hb b hs]

include ha in
theorem paged_times {n : Nat} {seen : List Recorded}
    (hn : Paged E projectId filter size rows n seen) :
    times seen = times (a.take (n * size)) := by
  refine paged_agrees hu hr h hm times_append (fun b hb k => ?_) hn
  have ht := times_agree hb ha
  rw [times, times, List.map_take, List.map_take]
  exact congrArg _ ht

include ha in
theorem paged_count {r : Recorded} (hd : Undivided size (admitted E u filter bounds rows) r.millis)
    {n : Nat} {seen : List Recorded} (hn : Paged E projectId filter size rows n seen) :
    seen.count r = (a.take (n * size)).count r :=
  paged_agrees (f := List.count r) hu hr h hm (fun _ _ => List.count_append)
    (fun _ hb k => (count_before hb hd k).trans (count_before ha hd k).symm) hn

include ha in
theorem paged_on {k : Nat} {seen : List Recorded}
    (hk : Paged E projectId filter size rows k seen) (n : Nat) :
    Paged E projectId filter size rows (k + n) (seen ++ (a.drop (k * size)).take (n * size)) := by
  induction n with
  | zero => simpa using hk
  | succ n ih =>
    refine (paged_next hu hr h hm (k + n) _).mpr ⟨_, a, ih, ha, ?_⟩
    rw [Nat.succ_mul, List.take_add, List.append_assoc, List.drop_drop, Nat.add_mul]

omit a

/-- At a boundary among the events of a time one of them can stand on both sides, as the order
is another one for the page behind it. -/
theorem divided_repeats {t : Int} (hd : ¬ Undivided size (admitted E u filter bounds rows) t) :
    ∃ n seen, Paged E projectId filter size rows n seen ∧
      (admitted E u filter bounds rows).length ≤ n * size ∧ ¬ seen.Nodup := by
  simp only [Undivided, not_forall, not_or, not_le] at hd
  obtain ⟨k, hk, hl⟩ := hd
  obtain ⟨a, ha⟩ := arranged_exists (admitted E u filter bounds rows)
  obtain ⟨x, y, z, hs⟩ := split_exists ha t
  obtain ⟨e, w, rfl⟩ : ∃ e w, y = e :: w :=
    List.exists_cons_of_length_pos (by rw [hs.same_length]; omega)
  have hx := hs.before_length
  have hw := hs.same_length
  rw [List.length_cons] at hw
  have hb := moved_arranges ha hs
  have first := paged_on hu hr h hm ha .start k
  have all := paged_on hu hr h hm hb first (admitted E u filter bounds rows).length
  have hlength := Nat.le_mul_of_pos_right (admitted E u filter bounds rows).length h
  refine ⟨_, _, all, ?_, fun hn => ?_⟩
  · rw [Nat.add_mul]
    omega
  · simp only [Nat.zero_add, Nat.zero_mul, List.drop_zero, List.nil_append] at hn
    have before : e ∈ a.take (k * size) := by
      obtain ⟨m, hm⟩ : ∃ m, k * size - x.length = m + 1 := ⟨k * size - x.length - 1, by omega⟩
      rw [hs.whole, List.take_append, hm]
      simp
    have behind : e ∈ (x ++ w ++ e :: z).drop (k * size) := by
      rw [List.drop_append_of_le_length (by rw [List.length_append]; omega)]
      simp
    have enough : ((x ++ w ++ e :: z).drop (k * size)).length ≤
        (admitted E u filter bounds rows).length * size := by
      rw [List.length_drop, hb.perm.length_eq]
      omega
    rw [List.take_of_length_le enough] at hn
    exact List.disjoint_of_nodup_append hn before behind

end

/-- Read to its end, the listing has the times of all events that the filter lets through, newest
first, and each event of a time that no boundary divides. Events that are all different come
exactly once each, in whatever orders the store answers, just if no boundary divides a time. -/
theorem events_paged (E : Engine) (projectId : String) (u : Uuid) (filter : Filter)
    (bounds : Option String × Option String) (size : Nat) (rows : List Recorded)
    (hu : Uuid.read (Text.trim projectId) = some u) (hr : filter.range = .ok bounds)
    (h : 1 ≤ size) (hm : size ≤ Limits.listedEvents) :
    let found := admitted E u filter bounds rows
    (∀ n, ∃ q p, query projectId (.events size (n * size)) filter = .ok q ∧
      Page.read q.sql = some p ∧ ∀ page, p.Gives E q.params rows page ↔
        ∃ a, TimeOrder.newestFirst.Arranges found a ∧ page = (a.drop (n * size)).take size) ∧
    (∀ n seen, Paged E projectId filter size rows n seen → seen ⊆ found ∧
      (found.length ≤ n * size → (times seen).Pairwise (· ≥ ·) ∧ (times seen).Perm (times found) ∧
        ∀ r, Undivided size found r.millis → seen.count r = found.count r)) ∧
    (found.Nodup → ((∀ n seen, Paged E projectId filter size rows n seen →
      found.length ≤ n * size → seen.Perm found) ↔
        ∀ r ∈ found, Undivided size found r.millis)) := by
  intro found
  obtain ⟨a, ha⟩ := arranged_exists found
  have counted {n : Nat} {seen : List Recorded} (hn : Paged E projectId filter size rows n seen)
      (hl : found.length ≤ n * size) (r : Recorded) (hd : Undivided size found r.millis) :
      seen.count r = found.count r := by
    rw [paged_count hu hr h hm ha hd hn, List.take_of_length_le (ha.perm.length_eq ▸ hl),
      ha.perm.count_eq]
  refine ⟨fun n => ?_, fun n seen hn => ⟨paged_subset hu hr h hm hn, fun hl => ?_⟩, fun hd => ?_⟩
  · obtain ⟨q, p, hq, hp, hg⟩ := events_given hu hr size (n * size)
    rw [clamp_within h hm] at hg
    exact ⟨q, p, hq, hp, hg E rows⟩
  · have ht := paged_times hu hr h hm ha hn
    rw [List.take_of_length_le (ha.perm.length_eq ▸ hl)] at ht
    rw [ht]
    exact ⟨times_sorted ha, times_perm ha, counted hn hl⟩
  · constructor
    · intro hall r _
      by_contra hs
      obtain ⟨n, seen, hn, hl, hs⟩ := divided_repeats hu hr h hm hs
      exact hs ((hall n seen hn hl).nodup_iff.mpr hd)
    · intro hall n seen hn hl
      refine List.perm_iff_count.mpr fun r => ?_
      by_cases hf : r ∈ found
      · exact counted hn hl r (hall r hf)
      · rw [List.count_eq_zero_of_not_mem hf, List.count_eq_zero_of_not_mem fun hs =>
          hf (paged_subset hu hr h hm hn hs)]

def visit (id : String) (millis : Int) : Recorded where
  id := id
  project := "6f1c2b8e-3d4a-4e5f-8a9b-0c1d2e3f4a5b"
  name := "visit"
  kind := "track"
  distinctId := "ann"
  properties := ""
  personProperties := ""
  millis := millis

theorem visits_admitted (visits : List (String × Int)) : ∃ u,
    Uuid.read (Text.trim "6f1c2b8e-3d4a-4e5f-8a9b-0c1d2e3f4a5b") = some u ∧
      let rows := visits.map fun (id, millis) => visit id millis
      admitted noonEngine u .all (none, none) rows = rows := by
  have known : (Uuid.read (Text.trim "6f1c2b8e-3d4a-4e5f-8a9b-0c1d2e3f4a5b")).map Uuid.render =
      some "6f1c2b8e-3d4a-4e5f-8a9b-0c1d2e3f4a5b" :=
    Uuid.grouped_render rfl
  obtain ⟨u, hu, hr⟩ := Option.map_eq_some_iff.mp known
  refine ⟨u, hu, List.filter_eq_self.mpr fun r hm => ?_⟩
  obtain ⟨v, _, rfl⟩ := List.mem_map.mp hm
  simp [Filter.admits, Filter.all, Filter.nonBlank, visit, hr]

theorem visits_paged : ∃ (u : Uuid) (rows : List Recorded),
    Uuid.read (Text.trim "6f1c2b8e-3d4a-4e5f-8a9b-0c1d2e3f4a5b") = some u ∧
    Filter.all.range = .ok (none, none) ∧ 1 ≤ 2 ∧ 2 ≤ Limits.listedEvents ∧
    admitted noonEngine u .all (none, none) rows = rows ∧ rows.length = 3 ∧
    (∃ seen, Paged noonEngine "6f1c2b8e-3d4a-4e5f-8a9b-0c1d2e3f4a5b" .all 2 rows 2 seen) ∧
    ∀ n seen, Paged noonEngine "6f1c2b8e-3d4a-4e5f-8a9b-0c1d2e3f4a5b" .all 2 rows n seen →
      3 ≤ n * 2 → seen.Perm rows := by
  let rows := [visit "a" 1, visit "b" 2, visit "c" 3]
  obtain ⟨u, hu, hf⟩ : ∃ u, Uuid.read (Text.trim "6f1c2b8e-3d4a-4e5f-8a9b-0c1d2e3f4a5b") = some u ∧
    admitted noonEngine u .all (none, none) rows = rows :=
    visits_admitted [("a", 1), ("b", 2), ("c", 3)]
  obtain ⟨_, _, hp⟩ := events_paged noonEngine "6f1c2b8e-3d4a-4e5f-8a9b-0c1d2e3f4a5b" u .all
    (none, none) 2 rows hu rfl (by decide) (by decide)
  obtain ⟨a, ha⟩ := arranged_exists (admitted noonEngine u .all (none, none) rows)
  have run := paged_on hu (rfl : Filter.all.range = .ok (none, none)) (by decide : 1 ≤ 2)
    (by decide) ha .start 2
  rw [hf] at hp
  refine ⟨u, rows, hu, rfl, by decide, by decide, hf, rfl, ⟨_, run⟩, ?_⟩
  exact (hp (by decide)).mpr fun r _ => distinct_undivided (by decide) 2 r.millis

/-- Two visits at one time, one on a page: the first one comes twice, the other one never. -/
theorem twins_repeated : ∃ (u : Uuid) (rows : List Recorded),
    Uuid.read (Text.trim "6f1c2b8e-3d4a-4e5f-8a9b-0c1d2e3f4a5b") = some u ∧
    Filter.all.range = .ok (none, none) ∧ admitted noonEngine u .all (none, none) rows = rows ∧
    rows = [visit "a" 1, visit "b" 1] ∧
    Paged noonEngine "6f1c2b8e-3d4a-4e5f-8a9b-0c1d2e3f4a5b" .all 1 rows 2
      [visit "a" 1, visit "a" 1] ∧
    ¬ [visit "a" 1, visit "a" 1].Perm rows := by
  obtain ⟨u, hu, hf⟩ := visits_admitted [("a", 1), ("b", 1)]
  have one (n : Nat) (all : List Recorded) : Paged noonEngine
      "6f1c2b8e-3d4a-4e5f-8a9b-0c1d2e3f4a5b" .all 1 [visit "a" 1, visit "b" 1] (n + 1) all ↔ _ :=
    paged_next hu (rfl : Filter.all.range = .ok (none, none)) (by decide) (by decide) n all
  refine ⟨u, _, hu, rfl, hf, rfl, ?_, by decide⟩
  refine (one 1 _).mpr ⟨[visit "a" 1], [visit "b" 1, visit "a" 1], ?_, ?_, rfl⟩
  · exact (one 0 _).mpr ⟨[], [visit "a" 1, visit "b" 1], .start, hf ▸ ⟨.refl _, by decide⟩, rfl⟩
  · exact hf ▸ ⟨.swap _ _ _, by decide⟩

end CohortQuery.Report
