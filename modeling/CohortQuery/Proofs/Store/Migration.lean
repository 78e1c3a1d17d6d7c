import CohortQuery.Proofs.Store.Catalogue
import CohortQuery.Proofs.Text.Like

/-!
# Migrations that fail

Calls follow one another on one store, and each may fail or break off at any request. So a call
may find any part of what those before it made.
-/

set_option autoImplicit false

namespace CohortQuery.Store

open Exchange (talks_done talks_note)

/-- Of the replies that a migration may get, those without rows and those that break off before the
first row. -/
def Reply.Fails : Reply → Prop
  | .rows .nothing (some _) | .rows (.flags []) (some _) | .rows (.versions []) (some _) => True
  | .rows _ _ => False
  | .refusal _ _ | .unreachable _ | .silence => True

theorem refused_reply {reply : Reply} (h : reply.IsRefused) : reply.Fails := by
  obtain ⟨f, h⟩ := h
  match reply with
  | .rows table fault => cases h
  | .refusal _ _ | .unreachable _ | .silence => trivial

namespace Catalogue

variable (c : Catalogue)

def known : Option Int :=
  if "schema_version" ∈ c.objects then c.version else none

def Complete : Prop :=
  ∀ object ∈ Migration.objects, object ∈ c.objects

/-- A version is recorded only if all objects are there. -/
def Sound : Prop :=
  ∀ v, c.version = some v → v = Schema.version ∧ c.Complete

end Catalogue

namespace Migration

def probes (c : Catalogue) : List Step :=
  .one Table.flags? probe ::
    if "schema_version" ∈ c.objects then [.optional Table.versions? recorded] else []

theorem probe_answered {c m : Catalogue} {reply : Reply}
    (h : Answers ⟨probe.sql, probe.params, true⟩ c reply m) : m = c ∧
      ((∃ f, (reply.table? >>= streamed Table.flags? >>= firstRow? >>= soleRow) = .error f) ∧
          reply.Fails ∨
        (reply.table? >>= streamed Table.flags? >>= firstRow? >>= soleRow) =
          .ok (decide ("schema_version" ∈ c.objects))) := by
  refine ⟨answers_kept h Upkeep.probe_read rfl, ?_⟩
  rcases answers_reply h Upkeep.probe_read with rfl | ⟨rows, f, rfl, hr⟩ | hr
  · exact .inr rfl
  · cases hr with
    | @flags rows _ hr =>
      cases rows with
      | nil => exact .inl ⟨⟨f, rfl⟩, trivial⟩
      | cons flag rows =>
        obtain ⟨rfl, _⟩ := List.cons_prefix_cons.mp hr
        exact .inr rfl
  · have hf := refused_reply hr
    obtain ⟨f, hr⟩ := hr
    rw [hr]
    exact .inl ⟨⟨f, rfl⟩, hf⟩

theorem recorded_answered {c m : Catalogue} {reply : Reply}
    (h : Answers ⟨recorded.sql, recorded.params, true⟩ c reply m) : m = c ∧
      ((∃ f, (reply.table? >>= streamed Table.versions? >>= firstRow?) = .error f) ∧ reply.Fails ∨
        (reply.table? >>= streamed Table.versions? >>= firstRow?) = .ok c.version) := by
  refine ⟨answers_kept h Upkeep.recorded_read rfl, ?_⟩
  have hr := answers_reply h Upkeep.recorded_read
  obtain ⟨objects, version⟩ := c
  rcases hr with rfl | ⟨rows, f, rfl, hr⟩ | hr
  · cases version <;> exact .inr rfl
  · cases hr with
    | @versions rows _ hr =>
      cases rows with
      | nil => exact .inl ⟨⟨f, rfl⟩, trivial⟩
      | cons v rows =>
        cases version with
        | none => cases List.eq_nil_of_prefix_nil hr
        | some w =>
          obtain ⟨rfl, _⟩ := List.cons_prefix_cons.mp hr
          exact .inr rfl
  · have hf := refused_reply hr
    obtain ⟨f, hr⟩ := hr
    rw [hr]
    exact .inl ⟨⟨f, rfl⟩, hf⟩

theorem probe_verbatim : Verbatim probe.sql := by
  have hs : Verbatim
      "SELECT count() > 0 FROM system.tables WHERE database = currentDatabase() AND " :=
    Sql.lacks_chars _ (by decide)
  have hn : Verbatim "name = 'schema_version'" := Sql.lacks_chars _ (by decide)
  exact hs.append hn

theorem recorded_verbatim : Verbatim recorded.sql :=
  Sql.lacks_chars _ (by decide)

/-- What a probe comes to: the catalogue stays, and unless the probe fails or breaks off, a value
is found. -/
inductive Probed {α : Type} (s : Step) (value : α) :
    List Turn → Option (Except StoreError α) → Prop where
  | cut : Probed s value [] none
  | lost {t : Turn} (h : s.Sends t.request) : Probed s value [t] none
  | fails {t : Turn} (e : StoreError) (h : s.Sends t.request) (hf : t.reply.Fails) :
      Probed s value [t] (some (.error e))
  | found {t : Turn} (h : s.Passes t) : Probed s value [t] (some (.ok value))

theorem probed_asking {α : Type} {q : Query} (hv : Verbatim q.sql)
    {f : Reply → Except ClientFault α} {good : Reply → Prop}
    (hg : ∀ reply, (∃ a, f reply = .ok a) ↔ good reply) {c : Catalogue} {value : α}
    (hf : ∀ reply m, Answers ⟨q.sql, q.params, true⟩ c reply m →
      m = c ∧ ((∃ e, f reply = .error e) ∧ reply.Fails ∨ f reply = .ok value))
    (wrap : ClientFault → StoreError) {l : Catalogue} {ts : List Turn}
    {o : Option (Except StoreError α)}
    (h : (Operation.wrapping wrap (Call.asking q true f)).run.Talks ts o)
    (ha : Answered c ts l) : l = c ∧ Probed ⟨q, true, good⟩ value ts o := by
  rcases talks_wrapped hv true f wrap h with ⟨rfl, rfl⟩ | ⟨reply, rfl, ho⟩
  · cases ha
    exact ⟨rfl, .cut⟩
  · cases ha with
    | cons hm ht =>
      cases ht
      obtain ⟨rfl, hr⟩ := hf reply _ hm
      have hs : (⟨q, true, good⟩ : Step).Sends ⟨q.sql, q.params, true⟩ :=
        ⟨expand_verbatim hv, rfl, rfl⟩
      refine ⟨rfl, ?_⟩
      rcases ho with rfl | rfl
      · exact .lost hs
      · rcases hr with ⟨⟨e, he⟩, hr⟩ | hr
        · rw [he]
          exact .fails _ hs hr
        · rw [hr]
          exact .found ⟨hs, (hg reply).mp ⟨value, hr⟩⟩

theorem probed_follows {α : Type} {s : Step} {value : α} {ts : List Turn}
    {o : Option (Except StoreError α)} (h : Probed s value ts o) : Follows [s] ts := by
  cases h with
  | cut => exact .nil _
  | lost h | fails _ h _ => exact .last [] h
  | found h => exact .last [] h.sends

theorem probed_end {α : Type} {s : Step} {value : α} {ts : List Turn}
    {o : Option (Except StoreError α)} (h : Probed s value ts o) : o = none ∨
      (∃ e, o = some (.error e)) ∧ (∃ t ∈ ts, t.reply.Fails) ∨
      o = some (.ok value) ∧ List.Forall₂ Step.Passes [s] ts := by
  cases h with
  | cut | lost => exact .inl rfl
  | fails e _ hf => exact .inr (.inl ⟨⟨e, rfl⟩, _, List.mem_singleton.mpr rfl, hf⟩)
  | found h => exact .inr (.inr ⟨rfl, .cons h .nil⟩)

theorem probe_probed {c l : Catalogue} {ts : List Turn} {o : Option (Except StoreError Bool)}
    (h : (Operation.wrapping unreachable (Call.fetchOne Table.flags? probe)).run.Talks ts o)
    (ha : Answered c ts l) :
    l = c ∧ Probed (.one Table.flags? probe) (decide ("schema_version" ∈ c.objects)) ts o := by
  rw [fetch_one_asking] at h
  exact probed_asking probe_verbatim (one_gives Table.flags?) (fun _ _ => probe_answered) _ h ha

theorem recorded_probed {c l : Catalogue} {ts : List Turn}
    {o : Option (Except StoreError (Option Int))}
    (h : (Operation.wrapping .client (Call.fetchOptional Table.versions? recorded)).run.Talks ts o)
    (ha : Answered c ts l) :
    l = c ∧ Probed (.optional Table.versions? recorded) c.version ts o := by
  rw [fetch_optional_asking] at h
  exact probed_asking recorded_verbatim (optional_gives Table.versions?)
    (fun _ _ => recorded_answered) _ h ha

theorem current_cases {c l : Catalogue} {ts : List Turn}
    {o : Option (Except StoreError (Option Int))} (h : current.run.Talks ts o)
    (ha : Answered c ts l) : l = c ∧ Follows (probes c) ts ∧ (o = none ∨
      (∃ e, o = some (.error e)) ∧ (∃ t ∈ ts, t.reply.Fails) ∨
      o = some (.ok c.known) ∧ List.Forall₂ Step.Passes (probes c) ts) := by
  rcases (talks_seq _ _ ts o).mp h with
    ⟨rfl, hx⟩ | ⟨e, ho, hx⟩ | ⟨known, before, behind, rfl, hx, hk⟩
  · obtain ⟨rfl, hp⟩ := probe_probed hx ha
    exact ⟨rfl, follows_left (probed_follows hp) _, .inl rfl⟩
  · obtain ⟨rfl, hp⟩ := probe_probed hx ha
    refine ⟨rfl, follows_left (probed_follows hp) _, ?_⟩
    rcases probed_end hp with he | ⟨_, hf⟩ | ⟨he, _⟩
    · cases he
    · exact ho.imp_right fun ho => .inl ⟨⟨e, ho⟩, hf⟩
    · cases he
  · obtain ⟨m, hb, hl⟩ := answered_append.mp ha
    obtain ⟨rfl, hp⟩ := probe_probed hx hb
    cases hp with
    | @found t hp =>
      by_cases hm : "schema_version" ∈ m.objects
      · have hs : probes m = [.one Table.flags? probe] ++ [.optional Table.versions? recorded] := by
          rw [probes, if_pos hm]
          rfl
        have hv : m.known = m.version := if_pos hm
        rw [if_pos (decide_eq_true hm)] at hk
        obtain ⟨rfl, hq⟩ := recorded_probed hk hl
        have hpass : List.Forall₂ Step.Passes [.one Table.flags? probe] [t] := .cons hp .nil
        rw [hs, hv]
        refine ⟨rfl, follows_right hpass (probed_follows hq), ?_⟩
        rcases probed_end hq with ho | ⟨he, u, hu, hf⟩ | ⟨ho, hps⟩
        · exact .inl ho
        · exact .inr (.inl ⟨he, u, List.mem_cons_of_mem _ hu, hf⟩)
        · exact .inr (.inr ⟨ho, List.rel_append hpass hps⟩)
      · have hs : probes m = [.one Table.flags? probe] := by
          rw [probes, if_neg hm]
        have hv : m.known = none := if_neg hm
        rw [if_neg (by simpa using hm)] at hk
        obtain ⟨rfl, ho⟩ := (talks_done _ _ _).mp hk
        cases hl
        rw [hs, hv]
        refine ⟨rfl, .last [] hp.sends, ho.imp_right fun ho => .inr ⟨ho, .cons hp .nil⟩⟩

def recording (clock : Int) : Step :=
  .execute (record (Text.signedNumeral clock) Schema.version "Initial schema")

/-- What makes the schema of a store without a recorded version. -/
def creation (settings : Settings.Store) (clock : Int) : List Step :=
  (Schema.statements settings).map (fun sql => .execute (statement sql)) ++ [recording clock]

theorem recording_read {clock : Int} {r : Request} (h : (recording clock).Sends r) :
    Upkeep.read r.sql = some (.record Schema.version) :=
  Upkeep.record_read h.text

theorem serial_execute_all (wrap : ClientFault → StoreError) (sqls : List String) :
    Serial (sqls.map fun sql => .execute (statement sql)) (executeAll wrap sqls) := by
  induction sqls with
  | nil => exact serial_pure ()
  | cons sql sqls ih =>
    exact serial_bind (p := [_]) (serial_wrapping (serial_execute (statement sql)) wrap) fun _ => ih

theorem serial_initial (settings : Settings.Store) (clock : Int) :
    Serial (creation settings clock) (initial settings (Text.signedNumeral clock)) := by
  have all (wrap : ClientFault → StoreError) := serial_execute_all wrap (Schema.statements settings)
  have last := serial_wrapping (serial_execute
    (record (Text.signedNumeral clock) Schema.version "Initial schema")) .client
  exact quiet_serial (serial_note _) fun _ => serial_bind (all _) fun _ =>
    serial_quiet last fun _ => serial_note _

theorem sound_insert {c : Catalogue} (h : c.Sound) (object : String) :
    Catalogue.Sound { c with objects := insert object c.objects } := by
  intro v hv
  obtain ⟨hs, hc⟩ := h v hv
  exact ⟨hs, fun o ho => Finset.mem_insert_of_mem (hc o ho)⟩

theorem recording_sound {clock : Int} {c l : Catalogue} {ts : List Turn} (hs : c.Sound)
    (hc : c.Complete) (hf : Follows [recording clock] ts) (ha : Answered c ts l) : l.Sound ∧
      (List.Forall₂ Step.Passes [recording clock] ts →
        l.Complete ∧ l.version = some Schema.version) := by
  rcases (follows_single _ _).mp hf with rfl | ⟨t, rfl, ht⟩
  · cases ha
    exact ⟨hs, fun hp => by cases hp⟩
  · cases ha with
    | cons hm hn =>
      cases hn
      rcases answers_left hm (recording_read ht) with rfl | ⟨rfl, hr⟩
      · exact ⟨fun v hv => ⟨(Option.some.inj hv).symm, hc⟩, fun _ => ⟨hc, rfl⟩⟩
      · refine ⟨hs, fun hp => ?_⟩
        cases hp with
        | cons hp _ => exact absurd hp.good hr

/-- The statements that are still to come create the objects that are missing, so the version is
recorded behind all of them. -/
theorem creation_sound (clock : Int) {sqls objects : List String}
    (hc : List.Forall₂ Creates sqls objects) {c l : Catalogue} {ts : List Turn} (hs : c.Sound)
    (ho : ∀ object ∈ Migration.objects, object ∈ c.objects ∨ object ∈ objects)
    (hf : Follows (sqls.map (fun sql => .execute (statement sql)) ++ [recording clock]) ts)
    (ha : Answered c ts l) : l.Sound ∧
      (List.Forall₂ Step.Passes
          (sqls.map (fun sql => .execute (statement sql)) ++ [recording clock]) ts →
        l.Complete ∧ l.version = some Schema.version) := by
  induction hc generalizing c ts with
  | nil =>
    have complete : c.Complete := fun object h => (ho object h).resolve_right (by simp)
    exact recording_sound hs complete hf ha
  | @cons sql object sqls objects hc _ ih =>
    have served {t : Turn} {m : Catalogue} (ht : (Step.execute (statement sql)).Sends t.request)
        (hm : Answers t.request c t.reply m) :
        m = { c with objects := insert object c.objects } ∨ m = c ∧ ¬t.reply.IsWhole :=
      answers_left hm (hc _ ht.text)
    cases hf with
    | nil =>
      cases ha
      exact ⟨hs, fun hp => by cases hp⟩
    | @last _ t _ ht =>
      cases ha with
      | cons hm hn =>
        cases hn
        refine ⟨?_, fun hp => ?_⟩
        · rcases served ht hm with rfl | ⟨rfl, _⟩
          · exact sound_insert hs object
          · exact hs
        · cases hp with
          | cons _ hp => exact absurd hp.length_eq (by simp)
    | @next _ _ t ts ht hf =>
      cases ha with
      | @cons _ m _ _ _ hm hn =>
        have hg : t.reply.IsWhole := ht.good
        obtain rfl := (served ht.sends hm).resolve_right fun h => h.2 hg
        have rest : ∀ o ∈ Migration.objects, o ∈ insert object c.objects ∨ o ∈ objects := by
          intro o h
          rcases ho o h with h | h
          · exact .inl (Finset.mem_insert_of_mem h)
          · rcases List.mem_cons.mp h with rfl | h
            · exact .inl (Finset.mem_insert_self o _)
            · exact .inr h
        obtain ⟨hl, hp⟩ := ih (sound_insert hs object) rest hf hn
        refine ⟨hl, fun hq => ?_⟩
        cases hq with
        | cons _ hq => exact hp hq

def Taken (plan : List Step) : Prop :=
  ∀ s ∈ plan, ∃ text, Template.expand s.query.sql = .ok text

theorem taken_verbatim {plan : List Step} (h : ∀ s ∈ plan, Verbatim s.query.sql) : Taken plan :=
  fun s hs => ⟨_, expand_verbatim (h s hs)⟩

theorem probes_taken (c : Catalogue) : Taken (probes c) := by
  refine taken_verbatim fun s hs => ?_
  unfold probes at hs
  split at hs
  next =>
    rcases List.mem_cons.mp hs with rfl | hs
    · exact probe_verbatim
    · obtain rfl := List.mem_singleton.mp hs
      exact recorded_verbatim
  next =>
    obtain rfl := List.mem_singleton.mp hs
    exact probe_verbatim

theorem verbatim_literal {s : String} (h : Verbatim s) : Verbatim (Schema.literal s) := by
  rw [Schema.literal, Text.Like.guard_literal]
  refine verbatim_spelled (fun c hq => ?_) h
  unfold Text.Like.literalChar at hq
  split at hq <;> simpa using hq

theorem verbatim_credential {word : String} (hw : Verbatim word) {o : Option String}
    (h : ∀ s, o = some s → Verbatim s) : Verbatim (Schema.credential word o) := by
  have blank : Verbatim " " := Sql.lacks_chars _ (by decide)
  have opening : Verbatim " '" := Sql.lacks_chars _ (by decide)
  have closing : Verbatim "'" := Sql.lacks_chars _ (by decide)
  cases o with
  | none => exact Sql.lacks_chars _ (by decide)
  | some s =>
    exact blank.append hw |>.append opening |>.append (verbatim_literal (h s rfl))
      |>.append closing

theorem verbatim_lines {ls : List String} (h : ∀ l ∈ ls, Verbatim l) :
    Verbatim (Schema.statement ls) := by
  have edge : Verbatim "\n" := Sql.lacks_chars _ (by decide)
  exact (edge.append (edge.join ls h)).append edge

theorem verbatim_dictionary {settings : Settings.Store} (hd : Verbatim settings.database)
    (hu : ∀ s, settings.user = some s → Verbatim s)
    (hp : ∀ s, settings.password = some s → Verbatim s) :
    Verbatim (Schema.dictionary settings) := by
  have fixed (cs : List Char) (h : '?' ∉ cs) : Verbatim (String.ofList cs) := Sql.lacks_chars _ h
  have source : Verbatim (Schema.dictionarySource settings) :=
    (fixed _ (by decide)).append (verbatim_literal hd) |>.append (fixed _ (by decide))
      |>.append (verbatim_credential (fixed _ (by decide)) hu)
      |>.append (verbatim_credential (fixed _ (by decide)) hp)
  refine verbatim_lines ?_
  simp only [List.forall_mem_cons]
  exact ⟨fixed _ (by decide), fixed _ (by decide), fixed _ (by decide), fixed _ (by decide),
    fixed _ (by decide), fixed _ (by decide),
    ((fixed _ (by decide)).append source).append (fixed _ (by decide)), fixed _ (by decide),
    fixed _ (by decide), fun _ h => nomatch h⟩

theorem statements_verbatim {settings : Settings.Store} (hd : Verbatim settings.database)
    (hu : ∀ s, settings.user = some s → Verbatim s)
    (hp : ∀ s, settings.password = some s → Verbatim s) :
    ∀ sql ∈ Schema.statements settings, Verbatim sql := by
  intro sql hs
  simp only [Schema.statements, List.mem_cons, List.not_mem_nil, or_false] at hs
  by_cases he : sql = Schema.dictionary settings
  · rw [he]
    exact verbatim_dictionary hd hu hp
  · -- the lines of the tables are fixed
    rcases hs with rfl | rfl | rfl | rfl | rfl
    case inr.inr.inr.inl => exact absurd rfl he
    all_goals
      refine verbatim_lines ?_
      simp only [List.forall_mem_cons]
      and_intros
    all_goals first
      | exact Sql.lacks_chars _ (by decide)
      | exact fun _ h => nomatch h

theorem creation_taken {settings : Settings.Store} (clock : Int)
    (h : ∀ sql ∈ Schema.statements settings, Verbatim sql) : Taken (creation settings clock) := by
  intro s hs
  rcases List.mem_append.mp hs with hs | hs
  · obtain ⟨sql, hm, rfl⟩ := List.mem_map.mp hs
    exact ⟨sql, expand_verbatim (h sql hm)⟩
  · obtain rfl := List.mem_singleton.mp hs
    exact ⟨_, Upkeep.record_expand _ _ _⟩

def refusal (v : Int) : StoreError :=
  if v < Schema.version then
    .migration (v + 1) "unknown" ("No migration defined for version " ++ Text.signedNumeral (v + 1))
  else
    .migration v "version_check"
      ("Database schema version " ++ Text.signedNumeral v ++
        " is newer than application version " ++ Text.signedNumeral Schema.version ++
        ". Upgrade the application.")

def verdict (v : Int) : Except StoreError Unit :=
  if v = Schema.version then .ok () else .error (refusal v)

theorem upgrades_missing {clock : String} {v : Int} (hv : Schema.upgrade? v = none) {n : Nat}
    (hn : n ≠ 0) {ts : List Turn} {o : Option (Except StoreError Unit)}
    (h : (upgrades clock v n).run.Talks ts o) : ts = [] ∧ (o = none ∨ o = some (.error
      (.migration v "unknown" ("No migration defined for version " ++ Text.signedNumeral v)))) := by
  obtain ⟨n, rfl⟩ := Nat.exists_eq_succ_of_ne_zero hn
  rw [upgrades, upgrade, hv] at h
  exact (talks_done _ _ _).mp h

/-- How a call goes on a catalogue, and the catalogue that is left. -/
inductive Course (settings : Settings.Store) (clock : Int) (c : Catalogue) :
    List Turn → Option (Except StoreError Unit) → Catalogue → Prop where
  | probing {ts : List Turn} {o : Option (Except StoreError Unit)} (h : Follows (probes c) ts)
      (ho : o = none ∨ (∃ e, o = some (.error e)) ∧ ∃ t ∈ ts, t.reply.Fails) :
      Course settings clock c ts o c
  | creating {before behind : List Turn} {o : Option (Except StoreError Unit)} {l : Catalogue}
      (hk : c.known = none) (hp : List.Forall₂ Step.Passes (probes c) before)
      (h : (initial settings (Text.signedNumeral clock)).run.Talks behind o)
      (ha : Answered c behind l) : Course settings clock c (before ++ behind) o l
  | known {v : Int} {ts : List Turn} {o : Option (Except StoreError Unit)}
      (hk : c.known = some v) (hp : List.Forall₂ Step.Passes (probes c) ts)
      (ho : o = none ∨ o = some (verdict v)) : Course settings clock c ts o c

theorem run_course {settings : Settings.Store} {clock : Int} {c l : Catalogue} {ts : List Turn}
    {o : Option (Except StoreError Unit)}
    (h : (run settings (Text.signedNumeral clock)).run.Talks ts o) (ha : Answered c ts l) :
    Course settings clock c ts o l := by
  rcases (talks_seq _ _ ts o).mp h with
    ⟨rfl, hx⟩ | ⟨e, ho, hx⟩ | ⟨known, before, behind, rfl, hx, hk⟩
  · obtain ⟨rfl, hf, _⟩ := current_cases hx ha
    exact .probing hf (.inl rfl)
  · obtain ⟨rfl, hf, hr⟩ := current_cases hx ha
    rcases hr with hr | ⟨_, ht⟩ | ⟨hr, _⟩
    · cases hr
    · exact .probing hf (ho.imp_right fun ho => ⟨⟨e, ho⟩, ht⟩)
    · cases hr
  · obtain ⟨m, hb, hl⟩ := answered_append.mp ha
    obtain ⟨rfl, _, hr⟩ := current_cases hx hb
    rcases hr with hr | ⟨⟨e, hr⟩, _⟩ | ⟨hr, hp⟩
    · cases hr
    · cases hr
    · obtain rfl : known = m.known := by simpa using hr
      cases hv : m.known with
      | none =>
        rw [hv] at hk
        exact .creating hv hp ((talks_note _ _ _ _).mp hk) hl
      | some v =>
        rw [hv] at hk
        dsimp only at hk
        have ended : behind = [] ∧ (o = none ∨ o = some (verdict v)) := by
          rcases Int.lt_trichotomy v Schema.version with hv | rfl | hv
          · rw [if_pos hv] at hk
            rw [verdict, if_neg (Int.ne_of_lt hv), refusal, if_pos hv]
            exact upgrades_missing rfl (by omega) ((talks_note _ _ _ _).mp hk)
          · rw [if_neg (Int.lt_irrefl _), if_neg (Int.lt_irrefl _)] at hk
            rw [verdict, if_pos rfl]
            exact (talks_done _ _ _).mp ((talks_note _ _ _ _).mp hk)
          · rw [if_neg (Int.lt_asymm hv), if_pos hv] at hk
            rw [verdict, if_neg (Int.ne_of_gt hv), refusal, if_neg (Int.lt_asymm hv)]
            exact (talks_done _ _ _).mp hk
        obtain ⟨rfl, ho⟩ := ended
        cases hl
        rw [List.append_nil]
        exact .known hv hp ho

section

variable {settings : Settings.Store} {clock : Int} {c l : Catalogue} {ts : List Turn}
  {o : Option (Except StoreError Unit)}

/-- What a call sends on a catalogue, if nothing fails. -/
def plan (settings : Settings.Store) (clock : Int) (c : Catalogue) : List Step :=
  probes c ++ if c.known = none then creation settings clock else []

theorem known_recorded {v : Int} (h : c.known = some v) :
    "schema_version" ∈ c.objects ∧ c.version = some v := by
  unfold Catalogue.known at h
  split at h
  next hm => exact ⟨hm, h⟩
  next => cases h

theorem plan_known {v : Int} (h : c.known = some v) : plan settings clock c = probes c := by
  rw [plan, h, if_neg (by simp), List.append_nil]

theorem plan_unknown (h : c.known = none) :
    plan settings clock c = probes c ++ creation settings clock := by
  rw [plan, if_pos h]

theorem course_sound (h : Course settings clock c ts o l) (hs : c.Sound) : l.Sound := by
  cases h with
  | probing | known => exact hs
  | creating _ _ h ha =>
    have hf := (serial_initial settings clock).follows h
    exact (creation_sound clock (statements_create settings) hs (fun _ h => .inr h) hf ha).1

theorem course_follows (h : Course settings clock c ts o l) :
    Follows (plan settings clock c) ts := by
  cases h with
  | probing h _ => exact follows_left h _
  | creating hk hp h _ =>
    rw [plan_unknown hk]
    exact follows_right hp ((serial_initial settings clock).follows h)
  | known hk hp _ =>
    rw [plan_known hk]
    exact passes_follows hp

theorem course_done (h : Course settings clock c ts (some (.ok ())) l) (hs : c.Sound) :
    List.Forall₂ Step.Passes (plan settings clock c) ts ∧
      l.Complete ∧ l.version = some Schema.version := by
  generalize ho : some (Except.ok ()) = o at h
  cases h with
  | probing _ hr =>
    rcases hr with rfl | ⟨⟨e, rfl⟩, _⟩ <;> cases ho
  | creating hk hp h ha =>
    subst ho
    have hi := serial_initial settings clock
    have hl := creation_sound clock (statements_create settings) hs (fun _ h => .inr h)
      (hi.follows h) ha
    rw [plan_unknown hk]
    exact ⟨List.rel_append hp (hi.passes h), hl.2 (hi.passes h)⟩
  | known hk hp hr =>
    rw [plan_known hk]
    rcases hr with rfl | rfl
    · cases ho
    · have hv : c.version = some _ := (known_recorded hk).2
      obtain ⟨rfl, hc⟩ := hs _ hv
      exact ⟨hp, hc, hv⟩

theorem course_known {v : Int} (h : Course settings clock c ts o l) (hk : c.known = some v) :
    l = c ∧ (o = none ∨ (∃ t ∈ ts, t.reply.Fails) ∨
      o = some (verdict v) ∧ List.Forall₂ Step.Passes (probes c) ts) := by
  cases h with
  | probing _ ho => exact ⟨rfl, ho.imp_right fun ho => .inl ho.2⟩
  | creating hn => simp [hk] at hn
  | known hw hp ho =>
    obtain rfl := Option.some.inj (hk.symm.trans hw)
    exact ⟨rfl, ho.imp_right fun ho => .inr ⟨ho, hp⟩⟩

theorem abandoned_cause {p : List Step} (h : Abandoned p ts) :
    ¬Taken p ∨ ∃ s ∈ p, ∃ t ∈ ts, s.Sends t.request ∧ ¬s.good t.reply := by
  induction h with
  | @refused s f plan h =>
    refine .inl fun ht => ?_
    obtain ⟨text, hs⟩ := ht s List.mem_cons_self
    cases hs.symm.trans h
  | last plan h hg => exact .inr ⟨_, List.mem_cons_self, _, List.mem_cons_self, h, hg⟩
  | next _ _ ih =>
    rcases ih with h | ⟨s, hs, t, ht, hg⟩
    · exact .inl fun hp => h fun s hs => hp s (List.mem_cons_of_mem _ hs)
    · exact .inr ⟨s, List.mem_cons_of_mem _ hs, t, List.mem_cons_of_mem _ ht, hg⟩

theorem creates_mem {sqls objects : List String} (h : List.Forall₂ Creates sqls objects)
    {sql : String} (hm : sql ∈ sqls) : ∃ object, Creates sql object := by
  induction h with
  | nil => cases hm
  | cons hc _ ih =>
    rcases List.mem_cons.mp hm with rfl | hm
    · exact ⟨_, hc⟩
    · exact ih hm

theorem creation_read {s : Step} (hs : s ∈ creation settings clock) {r : Request}
    (h : s.Sends r) : s.good = Reply.IsWhole ∧
      ∃ u, Upkeep.read r.sql = some u ∧ ∀ c, (Upkeep.run c u).2 = .nothing := by
  rcases List.mem_append.mp hs with hs | hs
  · obtain ⟨sql, hm, rfl⟩ := List.mem_map.mp hs
    obtain ⟨object, hc⟩ := creates_mem (statements_create settings) hm
    exact ⟨rfl, _, hc _ h.text, fun _ => rfl⟩
  · obtain rfl := List.mem_singleton.mp hs
    exact ⟨rfl, _, recording_read h, fun _ => rfl⟩

theorem creation_fails {s : Step} (hs : s ∈ creation settings clock) {t : Turn}
    (h : s.Sends t.request) {m : Catalogue} (ha : Answers t.request c t.reply m)
    (hg : ¬s.good t.reply) : t.reply.Fails := by
  obtain ⟨he, u, hu, hn⟩ := creation_read hs h
  rw [he] at hg
  rcases answers_reply ha hu with hr | ⟨rows, f, hr, ho⟩ | hr
  · exact absurd ⟨_, hr⟩ hg
  · rw [hn] at ho
    cases ho
    rw [hr]
    trivial
  · exact refused_reply hr

theorem answered_mem {c l : Catalogue} {ts : List Turn} (h : Answered c ts l) {t : Turn}
    (ht : t ∈ ts) : ∃ c m, Answers t.request c t.reply m := by
  induction h with
  | nil => cases ht
  | cons h _ ih =>
    rcases List.mem_cons.mp ht with rfl | ht
    · exact ⟨_, _, h⟩
    · exact ih ht

/-- On a sound catalogue a call ends with an error only if something failed. -/
theorem course_error {e : StoreError} (h : Course settings clock c ts (some (.error e)) l)
    (hs : c.Sound) : ¬Taken (plan settings clock c) ∨ ∃ t ∈ ts, t.reply.Fails := by
  generalize ho : some (Except.error e) = o at h
  cases h with
  | probing _ hr =>
    rcases hr with rfl | ⟨_, ht⟩
    · cases ho
    · exact .inr ht
  | creating hk _ h ha =>
    subst ho
    rcases abandoned_cause ((serial_initial settings clock).abandoned h) with
      hn | ⟨s, hm, t, ht, hs, hg⟩
    · refine .inl fun hp => hn fun s hm => hp s ?_
      rw [plan_unknown hk]
      exact List.mem_append_right _ hm
    · obtain ⟨_, _, ha⟩ := answered_mem ha ht
      exact .inr ⟨t, List.mem_append_right _ ht, creation_fails hm hs ha hg⟩
  | known hk _ hr =>
    rcases hr with rfl | rfl
    · cases ho
    · obtain ⟨rfl, _⟩ := hs _ (known_recorded hk).2
      rw [verdict, if_pos rfl] at ho
      cases ho

theorem plan_read {s : Step} (hs : s ∈ plan settings clock c) {r : Request} (h : s.Sends r) :
    ∃ u, Upkeep.read r.sql = some u := by
  have verbatim {q : Query} (hv : Verbatim q.sql)
      (hq : Template.expand q.sql = .ok r.sql) : r.sql = q.sql :=
    (Except.ok.inj ((expand_verbatim hv).symm.trans hq)).symm
  rcases List.mem_append.mp hs with hs | hs
  · unfold probes at hs
    rcases List.mem_cons.mp hs with rfl | hs
    · rw [verbatim probe_verbatim h.text]
      exact ⟨_, Upkeep.probe_read⟩
    · split at hs
      next =>
        obtain rfl := List.mem_singleton.mp hs
        rw [verbatim recorded_verbatim h.text]
        exact ⟨_, Upkeep.recorded_read⟩
      next => cases hs
  · split at hs
    next =>
      obtain ⟨_, u, hu, _⟩ := creation_read hs h
      exact ⟨u, hu⟩
    next => cases hs

end

theorem follows_sent {p : List Step} {ts : List Turn} (h : Follows p ts) {t : Turn} (ht : t ∈ ts) :
    ∃ s ∈ p, s.Sends t.request := by
  induction h with
  | nil => cases ht
  | last plan h =>
    obtain rfl := List.mem_singleton.mp ht
    exact ⟨_, List.mem_cons_self, h⟩
  | next h _ ih =>
    rcases List.mem_cons.mp ht with rfl | ht
    · exact ⟨_, List.mem_cons_self, h.sends⟩
    · obtain ⟨s, hs, h⟩ := ih ht
      exact ⟨s, List.mem_cons_of_mem _ hs, h⟩

theorem whole_fails (table : Table) : ¬(Reply.rows table none).Fails := by
  unfold Reply.Fails
  split <;> simp_all

theorem exchange_ends {α : Type} (x : Exchange α) {c : Catalogue}
    (hr : ∀ {ts : List Turn} {l : Catalogue}, x.Talks ts none → Answered c ts l →
      ∀ t ∈ ts, ∃ u, Upkeep.read t.request.sql = some u) :
    ∃ ts l a, x.Talks ts (some a) ∧ Answered c ts l ∧ ∀ t ∈ ts, ¬t.reply.Fails := by
  induction x generalizing c with
  | done a => exact ⟨[], c, a, .done a, .nil c, fun _ h => nomatch h⟩
  | note e rest ih =>
    obtain ⟨ts, l, a, ht, h⟩ := ih fun ht => hr (.note e ht)
    exact ⟨ts, l, a, .note e ht, h⟩
  | ask r next ih =>
    have refused : Answered c [⟨r, .silence⟩] c :=
      .cons (.refused ⟨_, rfl⟩) (.nil c)
    obtain ⟨u, hu⟩ := hr (.ask r .silence (.cut _)) refused _ List.mem_cons_self
    have served : Answers r c (.rows (u.run c).2 none) (u.run c).1 := .served hu
    obtain ⟨ts, l, a, ht, ha, hf⟩ := ih (.rows (u.run c).2 none) fun ht ha t hm =>
      hr (.ask r _ ht) (.cons served ha) t (List.mem_cons_of_mem _ hm)
    exact ⟨_, l, a, .ask r _ ht, .cons served ha,
      List.forall_mem_cons.mpr ⟨whole_fails _, hf⟩⟩

/-- A call, up to its end or to where it breaks off. -/
def Calls (settings : Settings.Store) (clock : Int) (c : Catalogue) (ts : List Turn)
    (o : Option (Except StoreError Unit)) (l : Catalogue) : Prop :=
  (run settings (Text.signedNumeral clock)).run.Talks ts o ∧ Answered c ts l

/-- What calls leave behind on a store that had no table of versions. -/
inductive Reached : Catalogue → Prop where
  | fresh {c : Catalogue} (hs : "schema_version" ∉ c.objects) (hv : c.version = none) : Reached c
  | call {settings : Settings.Store} {clock : Int} {c l : Catalogue} {ts : List Turn}
      {o : Option (Except StoreError Unit)} (hc : Reached c)
      (h : Calls settings clock c ts o l) : Reached l

/-- Nothing fails in a call: no reply does, and the client takes all statements. -/
structure Unfailing (settings : Settings.Store) (clock : Int) (c : Catalogue)
    (ts : List Turn) : Prop where
  replies : ∀ t ∈ ts, ¬t.reply.Fails
  taken : Taken (plan settings clock c)

theorem reached_sound {c : Catalogue} (h : Reached c) : c.Sound := by
  induction h with
  | fresh _ hv =>
    intro v h
    rw [hv] at h
    cases h
  | call _ h hc => exact course_sound (run_course h.1 h.2) hc

theorem known_version {c : Catalogue} {v : Int} (hs : "schema_version" ∈ c.objects)
    (hv : c.version = some v) : c.known = some v := by
  rw [Catalogue.known, if_pos hs, hv]

theorem known_settled {settings : Settings.Store} {clock : Int} {c l : Catalogue} {v : Int}
    (hk : c.known = some v) {ts : List Turn} {o : Option (Except StoreError Unit)}
    (h : Calls settings clock c ts o l) : l = c ∧
      ∀ r, o = some r → (∀ t ∈ ts, ¬t.reply.Fails) →
        r = verdict v ∧ List.Forall₂ Step.Passes (plan settings clock c) ts := by
  obtain ⟨hl, ho⟩ := course_known (run_course h.1 h.2) hk
  refine ⟨hl, ?_⟩
  rintro r rfl hf
  rcases ho with ho | ⟨t, ht, hn⟩ | ⟨ho, hp⟩
  · cases ho
  · exact absurd hn (hf t ht)
  · rw [plan_known hk]
    exact ⟨Option.some.inj ho, hp⟩

/-- Calls that fail anywhere leave nothing behind that a later call cannot complete. -/
theorem migrations_safe (settings : Settings.Store) (clock : Int) (c : Catalogue) :
    (Reached c →
      c.Sound ∧
      (∀ ts o l, Calls settings clock c ts o l → Follows (plan settings clock c) ts) ∧
      (∀ ts r l, Calls settings clock c ts (some r) l → Unfailing settings clock c ts →
        r = .ok () ∧ l.Complete ∧ l.version = some Schema.version) ∧
      (c.version = some Schema.version →
        plan settings clock c =
          [.one Table.flags? probe, .optional Table.versions? recorded] ∧
        ∀ ts o l, Calls settings clock c ts o l → l = c ∧
          ∀ r, o = some r → (∀ t ∈ ts, ¬t.reply.Fails) →
            r = .ok () ∧ List.Forall₂ Step.Passes (plan settings clock c) ts)) ∧
    (∀ v, "schema_version" ∈ c.objects → c.version = some v → v ≠ Schema.version →
      ∀ ts o l, Calls settings clock c ts o l → l = c ∧ Follows (probes c) ts ∧
        ∀ r, o = some r → (∀ t ∈ ts, ¬t.reply.Fails) → r = .error (refusal v)) ∧
    (Taken (plan settings clock c) →
      ∃ ts r l, Calls settings clock c ts (some r) l ∧ Unfailing settings clock c ts) := by
  refine ⟨fun hc => ?_, fun v hs hv hn ts o l h => ?_, fun ht => ?_⟩
  · have sound := reached_sound hc
    refine ⟨sound, fun ts o l h => course_follows (run_course h.1 h.2), ?_, fun hv => ?_⟩
    · intro ts r l h hf
      have course := run_course h.1 h.2
      cases r with
      | ok u => exact ⟨rfl, (course_done course sound).2⟩
      | error e =>
        rcases course_error course sound with hn | ⟨t, ht, hn⟩
        · exact absurd hf.taken hn
        · exact absurd hn (hf.replies t ht)
    · have hs : "schema_version" ∈ c.objects :=
        (sound _ hv).2 _ (by decide)
      have hk := known_version hs hv
      refine ⟨?_, fun ts o l h => known_settled hk h⟩
      rw [plan_known hk, probes, if_pos hs]
  · have hk := known_version hs hv
    obtain ⟨hl, hr⟩ := known_settled hk h
    refine ⟨hl, ?_, fun r ho hf => ?_⟩
    · have hp := course_follows (run_course h.1 h.2)
      rwa [plan_known hk] at hp
    · rw [(hr r ho hf).1, verdict, if_neg hn]
  · obtain ⟨ts, l, r, h, ha, hf⟩ := exchange_ends (run settings (Text.signedNumeral clock)).run
      fun {us m} hu hm t ht => by
        obtain ⟨s, hs, h⟩ := follows_sent (course_follows (run_course hu hm)) ht
        exact plan_read hs h
    exact ⟨ts, r, l, ⟨h, ha⟩, hf, ht⟩

def plainStore : Settings.Store :=
  (Settings.layer .nothing .empty).store

/-- A fresh store is migrated, and one of a later version stays as it is. -/
theorem plain_migrated :
    (∃ ts l, Calls plainStore 0 ⟨∅, none⟩ ts (some (.ok ())) l ∧ l.Complete ∧
      l.version = some Schema.version) ∧
    ∃ ts, Calls plainStore 0 ⟨{"schema_version"}, some 7⟩ ts (some (.error (refusal 7)))
      ⟨{"schema_version"}, some 7⟩ := by
  have verbatim : ∀ sql ∈ Schema.statements plainStore, Verbatim sql :=
    statements_verbatim (Sql.lacks_chars _ (by decide)) (fun _ h => nomatch h)
      (fun _ h => nomatch h)
  constructor
  · obtain ⟨safe, _, ends⟩ := migrations_safe plainStore 0 ⟨∅, none⟩
    have taken : Taken (plan plainStore 0 ⟨∅, none⟩) := fun s hs =>
      (List.mem_append.mp hs).elim (probes_taken _ s) (creation_taken 0 verbatim s)
    obtain ⟨ts, r, l, h, hf⟩ := ends taken
    obtain ⟨rfl, hl⟩ := (safe (.fresh (by decide) rfl)).2.2.1 ts r l h hf
    exact ⟨ts, l, h, hl⟩
  · obtain ⟨_, refused, ends⟩ := migrations_safe plainStore 0 ⟨{"schema_version"}, some 7⟩
    have taken : Taken (plan plainStore 0 ⟨{"schema_version"}, some 7⟩) := fun s hs =>
      (List.mem_append.mp hs).elim (probes_taken _ s) (fun h => nomatch h)
    obtain ⟨ts, r, l, h, hf⟩ := ends taken
    obtain ⟨rfl, _, hr⟩ := refused 7 (by decide) rfl (by decide) ts _ l h
    obtain rfl := hr r rfl hf.replies
    exact ⟨ts, h⟩

end Migration

end CohortQuery.Store
