import CohortQuery.Proofs.Store.Dictionary
import CohortQuery.Proofs.Store.Migration

/-!
# Question marks in the settings

The statements of the schema are templates for the client, and the literals in them are written
for the store alone. So what is sent is the schema of other settings, whose texts are what the
texts of the settings stand for as templates. If one of them stands for nothing, then the schema
is given up in front of the dictionary.
-/

set_option autoImplicit false

namespace CohortQuery

open Store (ClientFault)
open Store.Template (expand expandChars startsFields)
open Sql (literalBehind?)
open Store.Schema (literal credential dictionary opening selected grouped closing)
open Text.Like (guard_literal literalChar)

theorem expand_append {s : String} (h : Verbatim s) (t : String) :
    expand (s ++ t) = (expand t).map (s ++ ·) := by
  rw [expand, expand, String.toList_append, expand_chars_append h]
  cases expandChars t.toList with
  | error f => rfl
  | ok cs => exact congrArg Except.ok (by simp [String.ofList_append])

/-- The first character behind a literal: it makes no pair of marks and goes on with no word. -/
def Stops (ds : List Char) : Prop :=
  ∀ c, ds.head? = some c → c ∉ '?' :: "fields".toList

theorem written_prefix {w : List Char} (hw : ∀ c ∈ w, c ∈ "fields".toList) (cs : List Char)
    {ds : List Char} (hd : Stops ds) :
    w.isPrefixOf (cs.flatMap literalChar ++ ds) = w.isPrefixOf cs := by
  induction w generalizing cs with
  | nil => simp
  | cons a w ih =>
    obtain ⟨ha, hw⟩ := List.forall_mem_cons.mp hw
    have plain : a ≠ '\\' ∧ a ≠ '\'' := by
      constructor <;> rintro rfl <;> revert ha <;> decide
    cases cs with
    | nil =>
      cases ds with
      | nil => rfl
      | cons d ds =>
        have hn : a ≠ d := fun h => hd d rfl (List.mem_cons_of_mem _ (h ▸ ha))
        simp [List.isPrefixOf, hn]
    | cons c cs =>
      rw [List.flatMap_cons, List.append_assoc, literalChar]
      split
      next hc =>
        have hb : (a == '\\') = false := beq_false_of_ne plain.1
        have hn : (a == c) = false := beq_false_of_ne fun h => hc.elim (h ▸ plain.1) (h ▸ plain.2)
        simp [List.isPrefixOf, hb, hn]
      next => simp [List.isPrefixOf, ih hw cs]

theorem written_fields (cs : List Char) {ds : List Char} (hd : Stops ds) :
    startsFields (cs.flatMap literalChar ++ ds) = startsFields cs :=
  written_prefix (fun _ h => h) cs hd

theorem expand_pair (s : List Char) :
    expandChars ('?' :: '?' :: s) = (expandChars s).map ('?' :: ·) := by
  rw [expandChars]

theorem expand_lone {s : List Char} (h : ∀ t, s ≠ '?' :: t) : expandChars ('?' :: s) =
    .error (if startsFields s then .unboundFields else .unboundArgument) := by
  rw [expandChars]
  exact h

theorem expand_other {c : Char} (h : c ≠ '?') (s : List Char) :
    expandChars (c :: s) = (expandChars s).map (c :: ·) :=
  @expand_chars_append [c] (by simpa using h.symm) s

theorem written_unmarked {c : Char} (h : c ≠ '?') : '?' ∉ literalChar c := by
  unfold literalChar
  split <;> simp [h.symm]

theorem written_unpaired {cs : List Char} (hc : ∀ t, cs ≠ '?' :: t) {ds : List Char}
    (hd : Stops ds) (t : List Char) : cs.flatMap literalChar ++ ds ≠ '?' :: t := by
  intro he
  cases cs with
  | nil =>
    obtain rfl : ds = '?' :: t := he
    exact hd '?' rfl List.mem_cons_self
  | cons c cs =>
    have hn : c ≠ '?' := fun h => hc cs (h ▸ rfl)
    have front : literalChar c ≠ [] := by
      unfold literalChar
      split <;> simp
    obtain ⟨d, es, hs⟩ := List.exists_cons_of_ne_nil front
    rw [List.flatMap_cons, hs, List.append_assoc, List.cons_append] at he
    obtain ⟨rfl, -⟩ := List.cons.inj he
    exact written_unmarked hn (hs ▸ List.mem_cons_self)

/-- A literal in a template is the literal of what its text stands for as a template. -/
theorem expand_written (cs : List Char) {ds : List Char} (hd : Stops ds) :
    expandChars (cs.flatMap literalChar ++ ds) = do
      let es ← expandChars cs
      let fs ← expandChars ds
      return es.flatMap literalChar ++ fs := by
  induction cs using Store.Template.expandChars.induct with
  | case1 =>
    rw [List.flatMap_nil, List.nil_append]
    cases expandChars ds <;> rfl
  | case2 s ih =>
    have text : ('?' :: '?' :: s).flatMap literalChar ++ ds =
        '?' :: '?' :: (s.flatMap literalChar ++ ds) := rfl
    rw [text, expand_pair, expand_pair, ih]
    cases expandChars s with
    | error f => rfl
    | ok es => cases expandChars ds <;> rfl
  | case3 s hs =>
    have text : ('?' :: s).flatMap literalChar ++ ds = '?' :: (s.flatMap literalChar ++ ds) := rfl
    rw [text, expand_lone (written_unpaired hs hd), expand_lone hs, written_fields s hd]
    rfl
  | case4 c s _ hc ih =>
    rw [List.flatMap_cons, List.append_assoc, expand_chars_append (written_unmarked hc), ih,
      expand_other hc]
    cases expandChars s with
    | error f => rfl
    | ok es =>
      cases expandChars ds with
      | error f => rfl
      | ok fs => exact congrArg Except.ok (by simp)

theorem expand_literal (s : String) {t : String} (ht : Stops t.toList) :
    expand (literal s ++ t) = do
      let u ← expand s
      let v ← expand t
      return literal u ++ v := by
  rw [expand, literal, guard_literal, String.toList_append, String.toList_ofList,
    expand_written _ ht]
  rw [expand, expand]
  cases expandChars s.toList with
  | error f => rfl
  | ok es =>
    cases expandChars t.toList with
    | error f => rfl
    | ok fs =>
      exact congrArg Except.ok (by simp [literal, guard_literal, String.ofList_append])

theorem stops_chars {c : Char} (h : c ∉ '?' :: "fields".toList) (cs : List Char) (t : String) :
    Stops (String.ofList (c :: cs) ++ t).toList := by
  intro d hd
  rw [String.toList_append, String.toList_ofList] at hd
  obtain rfl := Option.some.inj hd
  exact h

theorem expand_credential {word : String} (hw : Verbatim word) (o : Option String) (t : String) :
    expand (credential word o ++ t) = do
      let p ← o.mapM expand
      let v ← expand t
      return credential word p ++ v := by
  cases o with
  | none =>
    have text (v : String) : credential word none ++ v = v := String.empty_append
    rw [text]
    cases expand t with
    | error f => rfl
    | ok v => exact congrArg Except.ok (text v).symm
  | some s =>
    have text (u v : String) : credential word (some u) ++ v =
        " " ++ (word ++ (" '" ++ (literal u ++ ("'" ++ v)))) := by
      simp only [credential, String.append_assoc]
    have blank : Verbatim " " := Sql.lacks_chars _ (by decide)
    have before : Verbatim " '" := Sql.lacks_chars _ (by decide)
    have quote : Verbatim "'" := Sql.lacks_chars _ (by decide)
    rw [text, expand_append blank, expand_append hw, expand_append before,
      expand_literal s (stops_chars (by decide) _ _), expand_append quote]
    rw [Option.mapM_some]
    cases expand s with
    | error f => rfl
    | ok u =>
      cases expand t with
      | error f => rfl
      | ok v => exact congrArg Except.ok (text u v).symm

/-- The settings that the client makes of the settings: their texts as templates. -/
def Settings.Store.expanded (s : Settings.Store) : Except ClientFault Settings.Store := do
  let database ← expand s.database
  let user ← s.user.mapM expand
  let password ← s.password.mapM expand
  return { s with database, user, password }

/-- The dictionary as a template is the dictionary of the settings as templates. -/
theorem expand_dictionary (s : Settings.Store) :
    expand (dictionary s) = s.expanded.map dictionary := by
  have text (t : Settings.Store) : dictionary t = opening ++ ("'" ++ (selected ++
      (literal t.database ++ (grouped ++ ("'" ++ (credential "USER" t.user ++
        (credential "PASSWORD" t.password ++ closing))))))) := by
    rw [Store.Schema.dictionary_text, Store.Schema.literal_selection]
    simp only [String.append_assoc]
  have fixed (cs : List Char) (h : '?' ∉ cs) : Verbatim (String.ofList cs) := Sql.lacks_chars _ h
  have quote : Verbatim "'" := fixed _ (by decide)
  have front : Verbatim selected := fixed _ (by decide)
  have behind : Verbatim grouped := fixed _ (by decide)
  have stops (t : String) : Stops (grouped ++ t).toList := stops_chars (by decide) _ t
  rw [text, expand_append (Store.Schema.opening_lacks (by decide)), expand_append quote,
    expand_append front, expand_literal _ (stops _), expand_append behind, expand_append quote,
    expand_credential (fixed _ (by decide)), expand_credential (fixed _ (by decide)),
    expand_verbatim (Store.Schema.closing_lacks (by decide)), Settings.Store.expanded]
  cases expand s.database with
  | error f => rfl
  | ok database =>
    cases s.user.mapM expand with
    | error f => rfl
    | ok user =>
      cases s.password.mapM expand with
      | error f => rfl
      | ok password => exact congrArg Except.ok (text { s with database, user, password }).symm

theorem expand_shrinks {cs : List Char} : ∀ {ds : List Char}, expandChars cs = .ok ds →
    ds.length ≤ cs.length ∧ ('?' ∈ cs → ds.length < cs.length) := by
  have mapped {r : Except ClientFault (List Char)} {c : Char} {ds : List Char}
      (h : r.map (c :: ·) = .ok ds) : ∃ es, r = .ok es ∧ c :: es = ds := by
    cases r with
    | error f => cases h
    | ok es => exact ⟨es, rfl, Except.ok.inj h⟩
  induction cs using Store.Template.expandChars.induct with
  | case1 =>
    intro ds h
    obtain rfl := Except.ok.inj h
    exact ⟨Nat.le_refl _, fun hm => nomatch hm⟩
  | case2 s ih =>
    intro ds h
    obtain ⟨es, he, rfl⟩ := mapped (expand_pair s ▸ h)
    have := (ih he).1
    simp only [List.length_cons]
    omega
  | case3 s hs =>
    intro ds h
    rw [expand_lone hs] at h
    cases h
  | case4 c s _ hc ih =>
    intro ds h
    obtain ⟨es, he, rfl⟩ := mapped (expand_other hc s ▸ h)
    obtain ⟨short, shorter⟩ := ih he
    refine ⟨Nat.succ_le_succ short, fun hm => Nat.succ_lt_succ (shorter ?_)⟩
    exact (List.mem_cons.mp hm).resolve_left fun h => hc h.symm

theorem expand_fixed (s : String) : expand s = .ok s ↔ Verbatim s := by
  refine ⟨fun h hm => ?_, expand_verbatim⟩
  unfold expand at h
  cases he : expandChars s.toList with
  | error f =>
    rw [he] at h
    cases h
  | ok ds =>
    rw [he] at h
    obtain rfl : String.ofList ds = s := Except.ok.inj h
    rw [String.toList_ofList] at he hm
    exact Nat.lt_irrefl _ ((expand_shrinks he).2 hm)

def Settings.Store.Unmarked (s : Settings.Store) : Prop :=
  Verbatim s.database ∧ (∀ t, s.user = some t → Verbatim t) ∧
    ∀ t, s.password = some t → Verbatim t

theorem expand_option (o : Option String) :
    o.mapM expand = .ok o ↔ ∀ t, o = some t → Verbatim t := by
  cases o with
  | none => simp [pure, Except.pure]
  | some s =>
    rw [Option.mapM_some]
    constructor
    · rintro h t ⟨⟩
      refine (expand_fixed s).mp ?_
      cases he : expand s with
      | error f =>
        rw [he] at h
        cases h
      | ok u =>
        rw [he] at h
        exact congrArg Except.ok (Option.some.inj (Except.ok.inj h))
    · intro h
      rw [expand_verbatim (h s rfl)]
      rfl

theorem expanded_self (s : Settings.Store) : s.expanded = .ok s ↔ s.Unmarked := by
  constructor
  · intro h
    simp only [Settings.Store.expanded, Binder.except_bind] at h
    obtain ⟨database, hd, user, hu, password, hp, he⟩ := h
    have same := Except.ok.inj he
    obtain rfl : database = s.database := congrArg Settings.Store.database same
    obtain rfl : user = s.user := congrArg Settings.Store.user same
    obtain rfl : password = s.password := congrArg Settings.Store.password same
    exact ⟨(expand_fixed _).mp hd, (expand_option _).mp hu, (expand_option _).mp hp⟩
  · rintro ⟨hd, hu, hp⟩
    rw [Settings.Store.expanded, expand_verbatim hd, (expand_option _).mpr hu,
      (expand_option _).mpr hp]
    rfl

theorem expanded_rest {s t : Settings.Store} (h : s.expanded = .ok t) :
    t = { s with database := t.database, user := t.user, password := t.password } := by
  simp only [Settings.Store.expanded, Binder.except_bind] at h
  obtain ⟨database, -, user, -, password, -, h⟩ := h
  obtain rfl := Except.ok.inj h
  rfl

theorem expanded_same {s t : Settings.Store} (h : s.expanded = .ok t)
    (hd : dictionary t = dictionary s) : s.Unmarked := by
  obtain ⟨database, user, password⟩ := Store.Schema.dictionary_injective hd
  have same : t = s := (expanded_rest h).trans (by rw [database, user, password])
  exact (expanded_self s).mp (same ▸ h)

namespace Store

namespace Exchange

variable {α β : Type}

/-- What is asked and what it ends with, if all replies come to their end. -/
inductive Accepted : Exchange α → List Request → α → Prop where
  | done (a : α) : Accepted (.done a) [] a
  | note (e : Log.Entry) {rest : Exchange α} {rs : List Request} {a : α}
      (h : Accepted rest rs a) : Accepted (.note e rest) rs a
  | ask (r : Request) {next : Reply → Exchange α} {rs : List Request} {a : α}
      (h : ∀ reply : Reply, reply.IsWhole → Accepted (next reply) rs a) :
      Accepted (.ask r next) (r :: rs) a

theorem accepted_bind {x : Exchange α} {f : α → Exchange β} {rs ss : List Request} {a : α} {b : β}
    (hx : x.Accepted rs a) (hf : (f a).Accepted ss b) : (x.bind f).Accepted (rs ++ ss) b := by
  induction hx with
  | done a => exact hf
  | note e _ ih => exact .note e (ih hf)
  | ask r _ ih => exact .ask r fun reply hr => ih reply hr hf

theorem accepted_play {x : Exchange α} {rs : List Request} {a : α} (h : x.Accepted rs a)
    {otherwise : Reply} (ho : otherwise.IsWhole) {replies : List Reply}
    (hr : ∀ r ∈ replies, r.IsWhole) :
    (x.play otherwise replies).value = a ∧ (x.play otherwise replies).requests = rs := by
  induction h generalizing replies with
  | done a => exact ⟨rfl, rfl⟩
  | note e _ ih => exact ih hr
  | ask r _ ih =>
    cases replies with
    | nil =>
      obtain ⟨hv, hq⟩ := ih otherwise ho hr
      exact ⟨hv, congrArg (r :: ·) hq⟩
    | cons reply replies =>
      obtain ⟨first, others⟩ := List.forall_mem_cons.mp hr
      obtain ⟨hv, hq⟩ := ih reply first others
      exact ⟨hv, congrArg (r :: ·) hq⟩

end Exchange

open Exchange (accepted_bind accepted_play)

section

variable {ε α β : Type} {x : ExceptT ε Exchange α} {f : α → ExceptT ε Exchange β}
  {rs ss : List Request}

theorem accepted_then {a : α} {r : Except ε β} (hx : x.run.Accepted rs (.ok a))
    (hf : (f a).run.Accepted ss r) : (x >>= f).run.Accepted (rs ++ ss) r :=
  accepted_bind hx hf

theorem accepted_failed {e : ε} (hx : x.run.Accepted rs (.error e)) :
    (x >>= f).run.Accepted rs (.error e) := by
  have ended : (ExceptT.bindCont f (.error e)).Accepted [] (.error e) := .done (Except.error e)
  have whole := accepted_bind hx ended
  rwa [List.append_nil] at whole

end

theorem noted_accepted (e : Log.Entry) {α : Type} {f : Unit → Operation α} {rs : List Request}
    {r : Except StoreError α} (h : (f ()).run.Accepted rs r) :
    (Operation.note e >>= f).run.Accepted rs r :=
  .note e h

theorem accepted_noted {x : Operation Unit} {rs : List Request} (h : x.run.Accepted rs (.ok ()))
    (e : Log.Entry) : (x >>= fun _ => Operation.note e).run.Accepted rs (.ok ()) := by
  have note : (Operation.note e).run.Accepted [] (.ok ()) := .note e (.done (Except.ok ()))
  have whole := accepted_then h (f := fun _ => Operation.note e) note
  rwa [List.append_nil] at whole

section

variable {q : Query} (wrap : ClientFault → StoreError)

theorem execute_accepted {text : String} (h : expand q.sql = .ok text) :
    (Operation.wrapping wrap (Call.execute q)).run.Accepted [⟨text, q.params, false⟩] (.ok ()) := by
  have call : (Call.execute q).run.Accepted [⟨text, q.params, false⟩] (.ok ()) := by
    rw [execute_asking, Call.asking, h]
    refine .ask _ fun reply hr => ?_
    obtain ⟨table, rfl⟩ := hr
    exact .done _
  exact accepted_bind call (.done _)

theorem execute_refused {fault : ClientFault} (h : expand q.sql = .error fault) :
    (Operation.wrapping wrap (Call.execute q)).run.Accepted [] (.error (wrap fault)) := by
  have call : (Call.execute q).run.Accepted [] (.error fault) := by
    rw [execute_asking, Call.asking, h]
    exact .done _
  exact accepted_bind call (.done _)

end

namespace Migration

def executing (sql : String) : Request :=
  ⟨sql, [], false⟩

def probing : Request :=
  ⟨probe.sql, [], true⟩

def recordingText (clock : Int) : String :=
  "INSERT INTO schema_version (id, version, applied_at, description) VALUES (1, " ++
    (Text.signedNumeral Schema.version ++ (", " ++
      (Text.signedNumeral clock ++ (", '" ++ ("Initial schema" ++ "')")))))

theorem recording_expand (clock : Int) :
    expand (recording clock).query.sql = .ok (recordingText clock) := by
  have query : (recording clock).query =
      record (Text.signedNumeral clock) Schema.version "Initial schema" := rfl
  have description : Template.escapeText "Initial schema" = "Initial schema" := by decide
  have sent := Upkeep.record_expand (Text.signedNumeral clock) Schema.version "Initial schema"
  rw [description] at sent
  rw [query]
  exact sent

/-- What is sent to a fresh store if every statement is sent as it is. -/
def sending (s : Settings.Store) (clock : Int) : List Request :=
  probing :: (Schema.statements s ++ [recordingText clock]).map executing

section

variable {wrap : ClientFault → StoreError}

theorem all_accepted {sqls texts : List String}
    (h : List.Forall₂ (fun sql text => expand sql = .ok text) sqls texts) {rest : List String}
    {rs : List Request} {r : Except StoreError Unit}
    (hr : (executeAll wrap rest).run.Accepted rs r) :
    (executeAll wrap (sqls ++ rest)).run.Accepted (texts.map executing ++ rs) r := by
  induction h with
  | nil => exact hr
  | @cons sql text sqls texts h _ ih =>
    have first : (Operation.wrapping wrap (Call.execute (statement sql))).run.Accepted
        [executing text] (.ok ()) := execute_accepted wrap h
    change Exchange.Accepted _ ([executing text] ++ (texts.map executing ++ rs)) _
    exact accepted_then first ih

theorem all_taken {sqls texts : List String}
    (h : List.Forall₂ (fun sql text => expand sql = .ok text) sqls texts) :
    (executeAll wrap sqls).run.Accepted (texts.map executing) (.ok ()) := by
  have ended : (executeAll wrap []).run.Accepted [] (.ok ()) := .done (Except.ok ())
  have whole := all_accepted h ended
  rwa [List.append_nil, List.append_nil] at whole

end

def tables : List String :=
  [Schema.versionTable, Schema.eventsTable, Schema.overridesTable]

theorem statements_split (s : Settings.Store) :
    Schema.statements s = tables ++ (dictionary s :: [Schema.membersTable]) :=
  rfl

theorem table_verbatim {sql : String} (h : sql ∈ tables ++ [Schema.membersTable]) :
    Verbatim sql := by
  have verbatim : ∀ sql ∈ Schema.statements plainStore, Verbatim sql :=
    statements_verbatim (Sql.lacks_chars _ (by decide)) (fun _ h => nomatch h)
      (fun _ h => nomatch h)
  refine verbatim sql ?_
  rw [statements_split]
  rcases List.mem_append.mp h with h | h
  · exact List.mem_append_left _ h
  · exact List.mem_append_right _ (List.mem_cons_of_mem _ h)

theorem tables_taken : List.Forall₂ (fun sql text => expand sql = .ok text) tables tables :=
  List.forall₂_same.mpr fun _ h => expand_verbatim (table_verbatim (List.mem_append_left _ h))

theorem run_fresh (settings : Settings.Store) (clock : String) : ∃ next,
    (run settings clock).run = .ask probing next ∧
      ∀ flags fault, ∃ e, next (.rows (.flags (false :: flags)) fault) =
        .note e (initial settings clock).run := by
  simp only [run, current, fetch_one_asking, Call.asking, expand_verbatim probe_verbatim]
  exact ⟨_, rfl, fun flags fault => ⟨_, rfl⟩⟩

section

variable {settings : Settings.Store} {clock : Int}

theorem initial_accepted {t : Settings.Store} (h : settings.expanded = .ok t) :
    (initial settings (Text.signedNumeral clock)).run.Accepted
      ((Schema.statements t ++ [recordingText clock]).map executing) (.ok ()) := by
  have made : expand (dictionary settings) = .ok (dictionary t) := by
    rw [expand_dictionary, h]
    rfl
  have last : expand Schema.membersTable = .ok Schema.membersTable :=
    expand_verbatim (table_verbatim (List.mem_append_right _ List.mem_cons_self))
  have taken : List.Forall₂ (fun sql text => expand sql = .ok text)
      (Schema.statements settings) (Schema.statements t) := by
    rw [statements_split, statements_split]
    exact List.rel_append tables_taken (.cons made (.cons last .nil))
  have recorded : (recordVersion (Text.signedNumeral clock) Schema.version
      "Initial schema").run.Accepted [executing (recordingText clock)] (.ok ()) :=
    execute_accepted .client (recording_expand clock)
  rw [List.map_append, initial]
  exact noted_accepted _ (accepted_then (all_taken taken) (accepted_noted recorded _))

theorem initial_refused {f : ClientFault} (h : settings.expanded = .error f) :
    (initial settings (Text.signedNumeral clock)).run.Accepted (tables.map executing)
      (.error (.migration Schema.version "initial" f.message)) := by
  have refused : expand (dictionary settings) = .error f := by
    rw [expand_dictionary, h]
    rfl
  have given_up (wrap : ClientFault → StoreError) :
      (executeAll wrap (dictionary settings :: [Schema.membersTable])).run.Accepted []
        (.error (wrap f)) := accepted_failed (execute_refused wrap refused)
  have all (wrap : ClientFault → StoreError) := all_accepted tables_taken (given_up wrap)
  simp only [List.append_nil, ← statements_split] at all
  rw [initial]
  exact noted_accepted _ (accepted_failed (all _))

theorem fresh_played {rs : List Request} {r : Except StoreError Unit}
    (h : (initial settings (Text.signedNumeral clock)).run.Accepted rs r) {otherwise : Reply}
    (ho : otherwise.IsWhole) {replies : List Reply} (hr : ∀ r ∈ replies, r.IsWhole)
    (flags : List Bool) (fault : Option ClientFault) :
    let p := (run settings (Text.signedNumeral clock)).run.play otherwise
      (.rows (.flags (false :: flags)) fault :: replies)
    p.value = r ∧ p.requests = probing :: rs := by
  obtain ⟨next, hn, fresh⟩ := run_fresh settings (Text.signedNumeral clock)
  obtain ⟨e, he⟩ := fresh flags fault
  obtain ⟨hv, hq⟩ := accepted_play (.note e h) ho hr
  rw [hn]
  dsimp only [Exchange.play]
  rw [he]
  exact ⟨hv, congrArg _ hq⟩

end

/-- A fresh store that accepts all requests gets the schema of the texts as templates, with the
credentials in its dictionary, or only the tables in front of the dictionary if one of the texts
stands for nothing. Just the settings without question marks are sent as they are. -/
theorem schema_sent (s : Settings.Store) (clock : Int) (otherwise : Reply) (replies : List Reply)
    (ho : otherwise.IsWhole) (hr : ∀ r ∈ replies, r.IsWhole) (flags : List Bool)
    (fault : Option ClientFault) :
    let p := (run s (Text.signedNumeral clock)).run.play otherwise
      (.rows (.flags (false :: flags)) fault :: replies)
    (∀ t, s.expanded = .ok t → p.value = .ok () ∧ p.requests = sending t clock ∧
      literalBehind? "USER" (dictionary t) = t.user ∧
      literalBehind? "PASSWORD" (dictionary t) = t.password) ∧
    (∀ f, s.expanded = .error f →
      p.value = .error (.migration Schema.version "initial" f.message) ∧
      p.requests = probing :: tables.map executing) ∧
    (p.requests = sending s clock ↔ s.Unmarked) := by
  have taken {t : Settings.Store} (ht : s.expanded = .ok t) :=
    fresh_played (@initial_accepted s clock t ht) ho hr flags fault
  have refused {f : ClientFault} (hf : s.expanded = .error f) :=
    fresh_played (@initial_refused s clock f hf) ho hr flags fault
  refine ⟨fun t ht => ?_, fun f hf => refused hf, fun h => ?_, fun h => ?_⟩
  · obtain ⟨hv, hq⟩ := taken ht
    exact ⟨hv, hq, Schema.literal_user t, Schema.literal_password t⟩
  · cases he : s.expanded with
    | error f =>
      have short := congrArg List.length ((refused he).2.symm.trans h)
      cases short
    | ok t =>
      have fifth := congrArg (·[4]?) ((taken he).2.symm.trans h)
      exact expanded_same he (congrArg Request.sql (Option.some.inj fifth))
  · exact (taken ((expanded_self s).mpr h)).2

theorem schema_sent_unmarked :
    let s : Settings.Store := { plainStore with user := some "reader", password := some "why" }
    let p := (run s (Text.signedNumeral 0)).run.play (.rows (.flags []) none)
      [.rows (.flags [false]) none]
    p.value = .ok () ∧ executing (dictionary s) ∈ p.requests ∧
      literalBehind? "PASSWORD" (dictionary s) = some "why" := by
  obtain ⟨taken, -, -⟩ := schema_sent
    { plainStore with user := some "reader", password := some "why" } 0 (.rows (.flags []) none) []
    ⟨_, rfl⟩ (List.forall_mem_nil _) [] none
  have unmarked : Settings.Store.Unmarked
      { plainStore with user := some "reader", password := some "why" } := by
    refine ⟨Sql.lacks_chars _ (by decide), ?_, ?_⟩
    · rintro t ⟨⟩
      exact Sql.lacks_chars _ (by decide)
    · rintro t ⟨⟩
      exact Sql.lacks_chars _ (by decide)
  obtain ⟨hv, hq, -, hp⟩ := taken _ ((expanded_self _).mpr unmarked)
  refine ⟨hv, ?_, hp⟩
  rw [hq, sending, statements_split]
  simp

/-- Settings that are accepted, whose password the client takes for a template. -/
theorem marked_password :
    let e : Settings.Effective :=
      ⟨⟨"http://localhost:8123", "cohortql", some "reader", some "why?", 30, true⟩,
        ⟨100, 1000, 10⟩⟩
    let p := (run e.store (Text.signedNumeral 0)).run.play (.rows (.flags []) none)
      [.rows (.flags [false]) none]
    e.flaw? = none ∧
      p.value = .error (.migration Schema.version "initial" ClientFault.unboundArgument.message) ∧
      p.requests = probing :: tables.map executing := by
  have refused : Settings.Store.expanded
      ⟨"http://localhost:8123", "cohortql", some "reader", some "why?", 30, true⟩ =
        .error .unboundArgument := by
    decide +kernel
  have rows : (Reply.rows (.flags []) none).IsWhole := ⟨_, rfl⟩
  obtain ⟨hv, hq⟩ := fresh_played (@initial_refused _ 0 _ refused) rows
    (List.forall_mem_nil _) [] none
  exact ⟨by decide +kernel, hv, hq⟩

end Migration

end Store

end CohortQuery
