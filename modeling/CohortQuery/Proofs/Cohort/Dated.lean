import CohortQuery.Proofs.Cohort.Agreement
import CohortQuery.Proofs.Cohort.Literals
import CohortQuery.Proofs.Cohort.Moved
import CohortQuery.Proofs.Cohort.Reason

/-!
# One end for all windows

With a date a definition is compiled to the statement that it has without one, but for the time
of the store: in all of its places stands the one placeholder of the date.
-/

set_option autoImplicit false

namespace CohortQuery

open Sql (Calm Edit Inert Moment Predicate Select nowChars turns_append turns_before turns_behind
  turns_select turns_whole)

/-- Replaces `old` from left to right. The first `skip` characters stand in an occurrence that is
replaced already. -/
def Sql.replaceFrom (old new : List Char) : Nat → List Char → List Char
  | _, [] => []
  | skip + 1, _ :: cs => replaceFrom old new skip cs
  | 0, c :: cs =>
    if old <+: c :: cs then new ++ replaceFrom old new (old.length - 1) cs
    else c :: replaceFrom old new 0 cs

def Sql.occurrencesFrom (old : List Char) : Nat → List Char → Nat
  | _, [] => 0
  | skip + 1, _ :: cs => occurrencesFrom old skip cs
  | 0, c :: cs =>
    if old <+: c :: cs then 1 + occurrencesFrom old (old.length - 1) cs
    else occurrencesFrom old 0 cs

def Sql.replaceAll (old new s : String) : String :=
  String.ofList (replaceFrom old.toList new.toList 0 s.toList)

/-- The number of places at which `replaceAll` replaces the text. -/
def Sql.occurrences (old s : String) : Nat :=
  occurrencesFrom old.toList 0 s.toList

def dating : Edit :=
  ⟨Sql.replaceFrom nowChars Bindings.dateToPlaceholder.render.toList 0,
    Sql.occurrencesFrom nowChars 0⟩

theorem replace_skips (old new us rest : List Char) :
    Sql.replaceFrom old new us.length (us ++ rest) = Sql.replaceFrom old new 0 rest ∧
      Sql.occurrencesFrom old us.length (us ++ rest) = Sql.occurrencesFrom old 0 rest := by
  induction us with
  | nil => exact ⟨rfl, rfl⟩
  | cons c us ih => exact ih

theorem dating_keeps {s : String} (h : Calm s.toList) : dating.Keeps s := by
  intro rest
  rw [Nat.zero_add]
  unfold dating
  dsimp only
  generalize s.toList = us at h
  induction h with
  | nil => exact ⟨rfl, rfl⟩
  | @cons c us hn hc _ ih =>
    have hp : ¬ nowChars <+: c :: (us ++ rest) := by
      intro hp
      rcases List.prefix_or_prefix_of_prefix hp (List.prefix_append (c :: us) rest) with hp | hp
      · exact hn hp
      · exact hc hp
    rw [List.cons_append, Sql.replaceFrom, Sql.occurrencesFrom, if_neg hp, if_neg hp, ih.1, ih.2]
    exact ⟨rfl, rfl⟩

theorem dating_turns : dating.Turns 1 Moment.now.render Bindings.dateToPlaceholder.render := by
  intro rest
  obtain ⟨c, cs, hc⟩ : ∃ c cs, nowChars = c :: cs := ⟨_, _, rfl⟩
  have hs := replace_skips nowChars Bindings.dateToPlaceholder.render.toList cs rest
  have hl : nowChars.length - 1 = cs.length := by rw [hc]; rfl
  have hp : nowChars <+: c :: (cs ++ rest) := by
    rw [hc]
    exact List.prefix_append (c :: cs) rest
  change Sql.replaceFrom nowChars _ 0 (nowChars ++ rest) = _ ∧
    Sql.occurrencesFrom nowChars 0 (nowChars ++ rest) = _
  rw [show nowChars ++ rest = c :: (cs ++ rest) by rw [hc]; rfl, Sql.replaceFrom,
    Sql.occurrencesFrom, if_pos hp, if_pos hp, hl, hs.1, hs.2]
  exact ⟨rfl, rfl⟩

theorem place_calm {stem : String} (h : stem ∈ literalStems) (n : Nat) {type : ParamType}
    (ht : type ≠ .time) : Calm (place stem n type).render.toList := by
  have hs : ∀ stem ∈ literalStems, Sql.Wordlike stem := by decide
  have hn : '(' ∉ (place stem n type).name.toList := fun hm =>
    absurd (place_proper stem n type (hs stem h) _ hm) (by decide)
  have hy : '(' ∉ type.render.toList := by
    cases type with
    | time => exact absurd rfl ht
    | _ => decide
  have hr : (place stem n type).render.toList =
      ('\x7b' :: (place stem n type).name.toList ++ ':' :: type.render.toList) ++ ['\x7d'] := by
    simp [Placeholder.render, place]
  rw [hr]
  have hp : '(' ∈ nowChars := by decide
  refine Sql.calm_before hp ?_ (by decide) (by decide)
  simp [hn, hy]

theorem dating_moves {c : Nat} {stop other : Moment}
    (h : dating.Turns c stop.render other.render) : Moves dating 0 c stop other :=
  ⟨fun _ hs => dating_keeps hs.calm, dating_keeps (by decide),
    fun _ hs n _ ht => dating_keeps (place_calm hs n ht), h⟩

theorem now_moves : Moves dating 0 1 .now (.bound Bindings.dateToPlaceholder) :=
  dating_moves dating_turns

theorem dated_moves : Moves dating 0 0 (.bound Bindings.dateToPlaceholder)
    (.bound Bindings.dateToPlaceholder) :=
  dating_moves (dating_keeps (by decide))

section

variable {k c n : Nat} {stop other : Moment} {p q : Predicate}

theorem restricted_moves (hm : Moves dating k c stop other) (s : Select)
    (hs : ∀ e ∈ s.surroundings, Calm e.toList)
    (ht : dating.Turns n (Predicate.render p) (Predicate.render q)) :
    dating.Turns n
      { s with conditions :=
        [Sql.RowTest.inProject.render, "(" ++ Predicate.render p ++ ")"] }.render
      { s with conditions :=
        [Sql.RowTest.inProject.render, "(" ++ Predicate.render q ++ ")"] }.render := by
  have hp := turns_before (turns_behind (hm.words "(" (.known (by decide))) ht)
    (hm.words ")" (.known (by decide)))
  have hc : dating.TurnsAll (0 + (n + 0))
      [Sql.RowTest.inProject.render, "(" ++ Predicate.render p ++ ")"]
      [Sql.RowTest.inProject.render, "(" ++ Predicate.render q ++ ")"] :=
    .cons (project_moves hm) (.cons hp .nil)
  rw [Nat.add_zero, Nat.zero_add] at hc
  exact turns_select (select_words hm) s (fun e he => dating_keeps (hs e he)) hc
    (Sql.keeps_all fun e he => dating_keeps (hs e (by simp [Select.surroundings, he])))

theorem resolved_calm : Calm Sql.resolvedPersonColumn.toList := by
  have hw : 'w' ∈ nowChars := by decide
  have person : Calm Sql.resolvedPerson.toList :=
    Sql.calm_text (Sql.calm_known (Sql.calm_lacking hw (by decide) (by decide)))
      (Sql.calm_known (by decide))
  exact Sql.calm_text (Sql.calm_text person (Sql.calm_known (by decide)))
    (Sql.calm_known (by decide))

theorem frames_calm : (∀ e ∈ listingFrame.surroundings, Calm e.toList) ∧
    ∀ e ∈ insertFrame.surroundings, Calm e.toList := by
  have hl : listingFrame.surroundings =
      [Sql.eventsTable, "distinct_id", Sql.resolvedPersonColumn, "distinct_id"] := rfl
  have hi : insertFrame.surroundings =
      [Sql.eventsTable, "project_id", cohortPlaceholder.render, "distinct_id"] := rfl
  have he : Calm Sql.eventsTable.toList := Sql.calm_known (by decide)
  have hd : Calm "distinct_id".toList := Sql.calm_known (by decide)
  have hp : Calm "project_id".toList := Sql.calm_known (by decide)
  have hc : cohortPlaceholder.render = "\x7bcohort_id:String\x7d" := rfl
  have hk : Calm cohortPlaceholder.render.toList := by
    rw [hc]
    exact Sql.calm_known (by decide)
  simp only [hl, hi, List.forall_mem_cons]
  exact ⟨⟨he, hd, resolved_calm, hd, by simp⟩, ⟨he, hp, hk, hd, by simp⟩⟩

theorem listing_moves (hm : Moves dating k c stop other)
    (ht : dating.Turns n (Predicate.render p) (Predicate.render q)) :
    dating.Turns n (listingSelect p).render (listingSelect q).render :=
  restricted_moves hm listingFrame frames_calm.1 ht

theorem insert_moves (hm : Moves dating k c stop other)
    (ht : dating.Turns n (Predicate.render p) (Predicate.render q)) :
    dating.Turns n (Materialization.insertText p) (Materialization.insertText q) := by
  have ho := turns_append (turns_append (hm.words "INSERT INTO " (.known (by decide)))
    (hm.words Sql.membersTable (by decide)))
    (hm.words " (project_id, cohort_id, distinct_id) " (.known (by decide)))
  exact turns_behind ho (restricted_moves hm insertFrame frames_calm.2 ht)

end

/-- The text `t` has the placeholder of the date where `s` has the time of the store, at `n`
places. -/
structure DatedText (n : Nat) (s t : String) : Prop where
  text : t = Sql.replaceAll "now64(3)" "\x7bcoh_date_to:DateTime64(3)\x7d" s
  places : Sql.occurrences "now64(3)" s = n
  gone : Sql.occurrences "now64(3)" t = 0

theorem dated_text {n : Nat} {s t : String} (hs : dating.Turns n s t) (ht : dating.Keeps t) :
    DatedText n s t := by
  obtain ⟨hx, hp⟩ := turns_whole hs
  refine ⟨?_, hp, (turns_whole ht).2⟩
  change t = String.ofList (dating.text s.toList)
  rw [hx]
  simp [dating, Sql.replaceFrom]

theorem get_set_all_agree {ps qs : Params} (entries : List (String × Value)) {name : String}
    (h : ps.get? name = qs.get? name) :
    (ps.setAll entries).get? name = (qs.setAll entries).get? name := by
  induction entries generalizing ps qs with
  | nil => exact h
  | cons e entries ih =>
    refine ih ?_
    by_cases hn : name = e.1
    · rw [hn, get_set, get_set]
    · rw [get_set_other _ _ _ _ hn, get_set_other _ _ _ _ hn, h]

/-- From `b` without a date and `c` with one, the same values are bound. -/
structure DatedStart (t : String) (b c : Bindings) : Prop where
  now : b.stop = .now
  bound : c.stop = .bound Bindings.dateToPlaceholder
  counter : c.counter = b.counter
  params : ∀ vs name, (c.bindAll vs).params.get? name =
    if name = Bindings.dateToName then some (.time t) else (b.bindAll vs).params.get? name
  free : ∀ vs, (b.bindAll vs).params.get? Bindings.dateToName = none

theorem start_dated {projectId date : String} {b c : Bindings}
    (hb : Bindings.start projectId none = .ok b)
    (hc : Bindings.start projectId (some date) = .ok c) :
    ∃ t, Time.startText date = some t ∧ DatedStart t b c := by
  obtain ⟨u, hu, rfl⟩ := by simpa [start_ok] using hb
  obtain ⟨v, hv, t, ht, rfl⟩ := by simpa [start_ok] using hc
  obtain rfl := Option.some.inj (hu.symm.trans hv)
  refine ⟨t, ht, rfl, rfl, rfl, fun vs name => ?_, fun vs => ?_⟩
  · split
    · next hn =>
      subst hn
      rw [Bindings.bind_all_get _ _ _ (by decide), opened_set]
      exact get_set _ _ _
    · next hn =>
      rw [Bindings.bind_all_params, Bindings.bind_all_params, opened_set]
      exact get_set_all_agree _ (get_set_other _ _ _ _ hn)
  · rw [Bindings.bind_all_get _ _ _ (by decide)]
    rfl

theorem start_undated {projectId date : String} {c : Bindings}
    (hc : Bindings.start projectId (some date) = .ok c) :
    ∃ b, Bindings.start projectId none = .ok b := by
  obtain ⟨u, hu, _⟩ := (start_ok _ _ _).mp hc
  exact ⟨_, (start_ok _ _ _).mpr ⟨u, hu, .inl ⟨rfl, rfl⟩⟩⟩

/-- The statement `r` is `q` with the date `t` as the end of all windows. -/
structure Dated (t : String) (n : Nat) (q r : Query) : Prop where
  text : DatedText n q.sql r.sql
  params : ∀ name, r.params.get? name =
    if name = Bindings.dateToName then some (.time t) else q.params.get? name
  free : q.params.get? Bindings.dateToName = none

theorem tree_stops (m : Condition) : treeStops m = 2 * m.leaves.countP Leaf.isTimed := by
  unfold treeStops
  induction m.leaves with
  | nil => rfl
  | cons l ls ih =>
    rw [List.map_cons, List.sum_cons, ih, List.countP_cons, Leaf.stops]
    split <;> omega

theorem tree_dated {t : String} {b c e f : Bindings} (hs : DatedStart t b c) {allowed : AllowList}
    {m : Condition} {p q : Predicate} (hp : (m.compile allowed).Yields b p e)
    (hq : (m.compile allowed).Yields c q f) :
    ∃ vs, e = b.bindAll vs ∧ f = c.bindAll vs ∧
      dating.Turns (2 * m.leaves.countP Leaf.isTimed) (Predicate.render p) (Predicate.render q) ∧
        dating.Keeps (Predicate.render q) := by
  obtain ⟨vs, hl, rfl⟩ := (yields_node allowed Limits.depth m b e p).mp hp
  rw [hs.now] at hl
  obtain ⟨r, hr, ht⟩ := node_moves now_moves hl
  obtain ⟨s, hl, hk⟩ := node_moves dated_moves hr
  rw [← hs.bound, ← hs.counter] at hr hl
  -- What the compiler yields is unique, so both are the predicate that it led to with the date.
  have unique {r : Predicate} (h : NodeLowers allowed c.stop Limits.depth c.counter m r vs) :
      r = q ∧ c.bindAll vs = f := by
    have hy := (yields_node allowed Limits.depth m c _ r).mpr ⟨vs, h, rfl⟩
    obtain ⟨hr, hf⟩ := Prod.mk.inj (hy.symm.trans hq)
    exact ⟨Except.ok.inj hr, hf⟩
  obtain ⟨rfl, rfl⟩ := unique hr
  obtain ⟨rfl, _⟩ := unique hl
  rw [tree_stops, Nat.one_mul] at ht
  rw [Nat.zero_mul] at hk
  exact ⟨vs, rfl, rfl, ht, hk⟩

/-- A definition is compiled with a date just if it is compiled without, and then all its windows
end at that date. -/
theorem date_ends_windows (projectId date : String) (b c : Bindings)
    (hb : Bindings.start projectId none = .ok b)
    (hc : Bindings.start projectId (some date) = .ok c) (d : Definition) (allowed : AllowList) :
    ∃ t, Time.startText date = some t ∧
      ((∃ r, d.listing allowed c = .ok r) ↔ ∃ q, d.listing allowed b = .ok q) ∧
      (∀ q r, d.listing allowed b = .ok q → d.listing allowed c = .ok r →
        Dated t (2 * d.root.leaves.countP Leaf.isTimed) q r) ∧
      ∀ cohort,
        ((∃ k, d.materialization cohort allowed c = .ok k) ↔
          ∃ m, d.materialization cohort allowed b = .ok m) ∧
        ∀ m k, d.materialization cohort allowed b = .ok m →
          d.materialization cohort allowed c = .ok k →
          Dated t (2 * d.root.leaves.countP Leaf.isTimed) m.insert k.insert := by
  obtain ⟨t, ht, hs⟩ := start_dated hb hc
  have listed (a : Bindings) : (∃ q, d.listing allowed a = .ok q) ↔
      ∃ p e, (d.compile allowed).Yields a p e := by
    simp only [listing_ok]
    exact ⟨fun ⟨_, p, e, h, _⟩ => ⟨p, e, h⟩, fun ⟨p, e, h⟩ => ⟨_, p, e, h, rfl⟩⟩
  have stores (cohort : String) (a : Bindings) : (∃ m, d.materialization cohort allowed a = .ok m) ↔
      checkNotBlank cohortName cohort = .ok () ∧ ∃ p e, (d.compile allowed).Yields a p e := by
    simp only [materialization_ok]
    exact ⟨fun ⟨_, hn, p, e, h, _⟩ => ⟨hn, p, e, h⟩, fun ⟨hn, p, e, h⟩ => ⟨_, hn, p, e, h, rfl⟩⟩
  have alike : (∃ p e, (d.compile allowed).Yields c p e) ↔
      ∃ p e, (d.compile allowed).Yields b p e :=
    ⟨compiled_alike allowed d.root c b, compiled_alike allowed d.root b c⟩
  refine ⟨t, ht, ?_, ?_, fun cohort => ⟨?_, ?_⟩⟩
  · rw [listed, listed, alike]
  · intro q r hq hr
    obtain ⟨p, e, hp, rfl⟩ := (listing_ok _ _ _ _).mp hq
    obtain ⟨p', f, hp', rfl⟩ := (listing_ok _ _ _ _).mp hr
    obtain ⟨vs, rfl, rfl, ht, hk⟩ := tree_dated hs hp hp'
    exact ⟨dated_text (listing_moves now_moves ht) (listing_moves dated_moves hk),
      hs.params vs, hs.free vs⟩
  · rw [stores, stores, alike]
  · intro m k hm hk
    obtain ⟨_, p, e, hp, rfl⟩ := (materialization_ok _ _ _ _ _).mp hm
    obtain ⟨_, p', f, hp', rfl⟩ := (materialization_ok _ _ _ _ _).mp hk
    obtain ⟨vs, rfl, rfl, ht, hk⟩ := tree_dated hs hp hp'
    have hn : Bindings.dateToName ≠ cohortName := by decide
    refine ⟨dated_text (insert_moves now_moves ht) (insert_moves dated_moves hk), ?_,
      (get_set_other _ _ _ _ hn).trans (hs.free vs)⟩
    intro name
    by_cases hname : name = cohortName
    · subst hname
      rw [if_neg hn.symm]
      exact (get_set _ _ _).trans (get_set _ _ _).symm
    · have h := hs.params vs name
      rw [← get_set_other _ _ _ (.text cohort) hname] at h
      refine h.trans ?_
      split
      · rfl
      · exact (get_set_other _ _ _ (.text cohort) hname).symm

theorem mixed_dated : ∃ b c q r m k,
    Bindings.start "6f1c2b8e-3d4a-4e5f-8a9b-0c1d2e3f4a5b" none = .ok b ∧
    Bindings.start "6f1c2b8e-3d4a-4e5f-8a9b-0c1d2e3f4a5b" (some "2025-03-01") = .ok c ∧
    mixedDefinition.listing mixedAllowed b = .ok q ∧
    mixedDefinition.listing mixedAllowed c = .ok r ∧
    Dated "2025-03-01 00:00:00.000" 6 q r ∧
    mixedDefinition.materialization "mixed" mixedAllowed b = .ok m ∧
    mixedDefinition.materialization "mixed" mixedAllowed c = .ok k ∧
    Dated "2025-03-01 00:00:00.000" 6 m.insert k.insert := by
  obtain ⟨c, _, hc, _⟩ := regulars_listed
  obtain ⟨b, hb⟩ := start_undated hc
  obtain ⟨t, ht, hl, hq, hm⟩ := date_ends_windows _ _ b c hb hc mixedDefinition mixedAllowed
  obtain rfl : t = "2025-03-01 00:00:00.000" := Option.some.inj (ht.symm.trans rfl)
  have hn : 2 * mixedDefinition.root.leaves.countP Leaf.isTimed = 6 := rfl
  obtain ⟨p, d, hy⟩ := mixed_compiles (started hb).counter
  have hqb := (listing_ok _ _ b _).mpr ⟨p, d, hy, rfl⟩
  have hmb := (materialization_ok _ "mixed" _ b _).mpr ⟨by decide, p, d, hy, rfl⟩
  obtain ⟨r, hr⟩ := hl.mpr ⟨_, hqb⟩
  obtain ⟨k, hk⟩ := (hm "mixed").1.mpr ⟨_, hmb⟩
  have hd := hq _ r hqb hr
  have hi := (hm "mixed").2 _ k hmb hk
  rw [hn] at hd hi
  exact ⟨b, c, _, r, _, k, hb, hc, hqb, hr, hd, hmb, hk, hi⟩

end CohortQuery
