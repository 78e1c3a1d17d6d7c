import CohortQuery.Proofs.Binder
import CohortQuery.Proofs.Json.Legible
import CohortQuery.Settings.Load

/-!
# Layers of settings

Each setting is layered by itself: what the command line gives, else what the overlay has, else
what the profile has, else what is built in. Where the setting stands in a file, in a section of
its own or beside others, does not matter.
-/

set_option autoImplicit false

namespace CohortQuery.Settings

open Json (Fields)

inductive Setting where
  | url
  | database
  | user
  | password
  | timeoutSecs
  | compression
  | defaultLimit
  | maxLimit
  | topLimit
  deriving DecidableEq

namespace Setting

abbrev Value : Setting → Type
  | url | database | user | password => String
  | timeoutSecs | defaultLimit | maxLimit | topLimit => Nat
  | compression => Bool

/-- The command line has nothing to say of compression and of the size of queries. -/
def given : (s : Setting) → Given → Option s.Value
  | url, g => g.url
  | database, g => g.database
  | user, g => g.user
  | password, g => g.password
  | timeoutSecs, g => g.timeoutSecs
  | compression, _ | defaultLimit, _ | maxLimit, _ | topLimit, _ => none

def inFile : (s : Setting) → File → Option s.Value
  | url, f => f.store.bind (·.url)
  | database, f => f.store.bind (·.database)
  | user, f => f.store.bind (·.user)
  | password, f => f.store.bind (·.password)
  | timeoutSecs, f => f.store.bind (·.timeoutSecs)
  | compression, f => f.store.bind (·.compression)
  | defaultLimit, f => f.query.bind (·.defaultLimit)
  | maxLimit, f => f.query.bind (·.maxLimit)
  | topLimit, f => f.query.bind (·.topLimit)

def builtIn : (s : Setting) → Option s.Value
  | url => some "http://localhost:8123"
  | database => some "cohortql"
  | user | password => none
  | timeoutSecs => some 30
  | compression => some true
  | defaultLimit => some 100
  | maxLimit => some 1000
  | topLimit => some 10

/-- What comes out. Only the user and the password may be nothing. -/
def effective : (s : Setting) → Effective → Option s.Value
  | url, e => some e.store.url
  | database, e => some e.store.database
  | user, e => e.store.user
  | password, e => e.store.password
  | timeoutSecs, e => some e.store.timeoutSecs
  | compression, e => some e.store.compression
  | defaultLimit, e => some e.query.defaultLimit
  | maxLimit, e => some e.query.maxLimit
  | topLimit, e => some e.query.topLimit

theorem effective_ext {d e : Effective} (h : ∀ s : Setting, s.effective d = s.effective e) :
    d = e := by
  have store : d.store = e.store := by
    have hu := h url
    have hd := h database
    have hn := h user
    have hp := h password
    have ht := h timeoutSecs
    have hc := h compression
    cases hds : d.store
    cases hes : e.store
    simp only [effective, hds, hes, Option.some.injEq] at hu hd hn hp ht hc
    subst hu hd hn hp ht hc
    rfl
  have query : d.query = e.query := by
    have hl := h defaultLimit
    have hm := h maxLimit
    have ht := h topLimit
    cases hdq : d.query
    cases heq : e.query
    simp only [effective, hdq, heq, Option.some.injEq] at hl hm ht
    subst hl hm ht
    rfl
  cases d
  cases e
  simp only at store query
  rw [store, query]

end Setting

section

variable {α β : Type} {merge : α → α → α} {empty : α} {value : α → Option β}

theorem merge_section (he : value empty = none)
    (hm : ∀ s above, value (merge s above) = (value above).or (value s)) (s above : Option α) :
    (mergeSection merge empty s above).bind value = (above.bind value).or (s.bind value) := by
  cases above with
  | none => rfl
  | some a =>
    cases s with
    | none => simp [mergeSection, hm, he]
    | some s => simp [mergeSection, hm]

theorem section_value (he : value empty = none) (s : Option α) :
    value (s.getD empty) = s.bind value := by
  cases s with
  | none => exact he
  | some s => rfl

theorem optional_layered (he : value empty = none) (o : Option β) (s : Option α) :
    o.or (value (s.getD empty)) = o.or ((s.bind value).or none) := by
  rw [section_value he, Option.or_none]

theorem layered (he : value empty = none) (o : Option β) (s : Option α) (b : β) :
    some ((o.or (value (s.getD empty))).getD b) = o.or ((s.bind value).or (some b)) := by
  rw [section_value he]
  cases o with
  | none => cases s.bind value <;> rfl
  | some a => rfl

end

theorem merge_setting (s : Setting) (f above : File) :
    s.inFile (f.merge above) = (s.inFile above).or (s.inFile f) := by
  cases s <;> exact merge_section rfl (fun _ _ => rfl) _ _

theorem layer_setting (s : Setting) (given : Given) (f : File) :
    s.effective (layer given f) = (s.given given).or ((s.inFile f).or s.builtIn) := by
  cases s
  case user | password => exact optional_layered rfl _ _
  case url | database | timeoutSecs => exact layered rfl _ _ _
  case compression | defaultLimit | maxLimit | topLimit => exact layered rfl none _ _

/-- Files in which every setting is the same come to the same effective settings. -/
theorem layer_same {given : Given} {f g : File} (h : ∀ s : Setting, s.inFile f = s.inFile g) :
    layer given f = layer given g :=
  Setting.effective_ext fun s => by rw [layer_setting, layer_setting, h]

namespace Setting

def sectionName : Setting → String
  | url | database | user | password | timeoutSecs | compression => "clickhouse"
  | defaultLimit | maxLimit | topLimit => "query"

def name : Setting → String
  | url => "url"
  | database => "database"
  | user => "user"
  | password => "password"
  | timeoutSecs => "timeout_secs"
  | compression => "compression"
  | defaultLimit => "default_limit"
  | maxLimit => "max_limit"
  | topLimit => "top_events_limit"

def decode : (s : Setting) → Json.Decoder s.Value
  | url | database | user | password => Json.Decode.text
  | timeoutSecs => Json.Decode.word64
  | compression => Json.Decode.bool
  | defaultLimit | maxLimit | topLimit => Json.Decode.word32

end Setting

/-- The fields of a section, of which there are none if it is null or not there. -/
def sectionFields (fields : Fields) (name : String) : Fields :=
  match Json.get? fields name with
  | some (.object settings) => settings
  | _ => []

def present (fields : Fields) (name : String) : Option Json :=
  match Json.get? fields name with
  | some .null => none
  | v => v

def Setting.written (s : Setting) (fields : Fields) : Option Json :=
  present (sectionFields fields s.sectionName) s.name

theorem optional_read {α : Type} (name : String) (decode : Json.Decoder α) (fields : Fields) :
    (optional name decode).ofFields fields = (present fields name).mapM decode := by
  unfold optional Json.RecordField.ofFields present
  cases h : Json.get? fields name with
  | none => simp only [Json.RecordField.defaulted, h]; rfl
  | some v => cases v <;> simp only [Json.RecordField.defaulted, h] <;> rfl

theorem field_read {α β : Type} {r : Json.Record (α → β)} {f : Json.RecordField α}
    {fields : Fields} {b : β} : (r.field f).ofFields fields = .ok b ↔
      ∃ g, r.ofFields fields = .ok g ∧ ∃ a, f.ofFields fields = .ok a ∧ g a = b := by
  simp only [Json.Record.field, Binder.except_bind, pure, Except.pure, Except.ok.injEq]

theorem of_read {α : Type} {a b : α} {fields : Fields} :
    (Json.Record.of a).ofFields fields = .ok b ↔ a = b := by
  simp only [Json.Record.of, Except.ok.injEq]

theorem store_read {fields : Fields} {s : StoreSection}
    (h : StoreSection.record.ofFields fields = .ok s) :
      urlField.ofFields fields = .ok s.url ∧ databaseField.ofFields fields = .ok s.database ∧
      userField.ofFields fields = .ok s.user ∧ passwordField.ofFields fields = .ok s.password ∧
      timeoutField.ofFields fields = .ok s.timeoutSecs ∧
      compressionField.ofFields fields = .ok s.compression := by
  simp only [StoreSection.record, field_read, of_read] at h
  obtain ⟨_, ⟨_, ⟨_, ⟨_, ⟨_, ⟨_, rfl, _, hu, rfl⟩, _, hd, rfl⟩, _, hn, rfl⟩, _, hp, rfl⟩, _, ht,
    rfl⟩, _, hc, rfl⟩ := h
  exact ⟨hu, hd, hn, hp, ht, hc⟩

theorem query_read {fields : Fields} {s : QuerySection}
    (h : QuerySection.record.ofFields fields = .ok s) :
      defaultLimitField.ofFields fields = .ok s.defaultLimit ∧
      maxLimitField.ofFields fields = .ok s.maxLimit ∧
      topLimitField.ofFields fields = .ok s.topLimit := by
  simp only [QuerySection.record, field_read, of_read] at h
  obtain ⟨_, ⟨_, ⟨_, rfl, _, hl, rfl⟩, _, hm, rfl⟩, _, ht, rfl⟩ := h
  exact ⟨hl, hm, ht⟩

theorem section_read {α β : Type} {record : Json.Record α} {decode : Json.Decoder β}
    {value : α → Option β} {name key : String} {fields : Fields} {o : Option α}
    (hr : ∀ settings a, record.ofFields settings = .ok a →
      (optional key decode).ofFields settings = .ok (value a))
    (h : sectionOf record fields name = .ok o) :
    (present (sectionFields fields name) key).mapM decode = .ok (o.bind value) := by
  rw [sectionOf] at h
  rw [sectionFields]
  cases hs : Json.get? fields name with
  | none =>
    rw [hs] at h
    obtain rfl := Except.ok.inj h
    rfl
  | some v =>
    rw [hs] at h
    cases v with
    | object settings =>
      cases ha : record.ofFields settings with
      | error m =>
        simp only [ha] at h
        cases h
      | ok a =>
        simp only [ha] at h
        obtain rfl := Except.ok.inj h
        exact (optional_read key decode settings).symm.trans (hr settings a ha)
    | null | bool _ | number _ | text _ | list _ =>
      obtain rfl := Except.ok.inj h
      rfl

theorem file_read {fields : Fields} {f : File} (h : File.ofFields fields = .ok f) (s : Setting) :
    (s.written fields).mapM s.decode = .ok (s.inFile f) := by
  simp only [File.ofFields, Binder.except_bind] at h
  obtain ⟨store, hs, query, hq, hf⟩ := h
  obtain rfl := Except.ok.inj hf
  cases s
  case url => exact section_read (fun _ _ h => (store_read h).1) hs
  case database => exact section_read (fun _ _ h => (store_read h).2.1) hs
  case user => exact section_read (fun _ _ h => (store_read h).2.2.1) hs
  case password => exact section_read (fun _ _ h => (store_read h).2.2.2.1) hs
  case timeoutSecs => exact section_read (fun _ _ h => (store_read h).2.2.2.2.1) hs
  case compression => exact section_read (fun _ _ h => (store_read h).2.2.2.2.2) hs
  case defaultLimit => exact section_read (fun _ _ h => (query_read h).1) hq
  case maxLimit => exact section_read (fun _ _ h => (query_read h).2.1) hq
  case topLimit => exact section_read (fun _ _ h => (query_read h).2.2) hq

namespace Loader

variable {α β : Type}

/-- The loader ends in this way, whatever the log says before. -/
def Ends (x : Loader α) (r : Except Error α) : Prop :=
  ∀ log, (x.run.run log).1 = r

theorem ends_pure (a : α) : (pure a : Loader α).Ends (.ok a) :=
  fun _ => rfl

theorem ends_bind {x : Loader α} {f : α → Loader β} {a : α} {r : Except Error β}
    (hx : x.Ends (.ok a)) (hf : (f a).Ends r) : (x >>= f).Ends r := by
  intro log
  have hb : (x >>= f).run.run log =
      (ExceptT.bindCont f (x.run.run log).1 : StateM _ _).run (x.run.run log).2 := rfl
  rw [hb, hx log]
  exact hf _

theorem ends_unique {x : Loader α} {q r : Except Error α} (hq : x.Ends q) (hr : x.Ends r) :
    q = r :=
  (hq []).symm.trans (hr [])

theorem ends_note (e : Log.Entry) : (note e).Ends (.ok ()) :=
  fun _ => rfl

end Loader

open Loader (ends_bind ends_note ends_pure ends_unique)

/-- The file under a path is read as `f`; where no path is looked at, `f` is empty. -/
def ReadAs (disk : Disk) (f : File) : Option String → Prop
  | none => f = .empty
  | some path => ∃ s, (disk path).content = .ok s ∧ File.read s = .ok f

theorem file_loads {disk : Disk} {path s : String} {f : File} (hc : (disk path).content = .ok s)
    (hr : File.read s = .ok f) : (loadFile disk path).Ends (.ok f) := by
  refine ends_bind (ends_note _) ?_
  rw [hc]
  dsimp only
  rw [hr]
  by_cases hu : (!f.unknown.isEmpty) = true
  · simp only [hu, if_true]
    exact ends_bind (ends_note _) (ends_pure f)
  · simp only [hu]
    exact ends_pure f

theorem optional_loads {disk : Disk} {path : Option String} {f g : File}
    (h : ReadAs disk g path) : (loadOptional disk f path).Ends (.ok (f.merge g)) := by
  cases path with
  | none =>
    obtain rfl : g = .empty := h
    exact ends_pure f
  | some path =>
    obtain ⟨s, hc, hr⟩ := h
    exact ends_bind (file_loads hc hr) (ends_pure _)

/-- A command line and the two files that are found under it. -/
structure Layers where
  disk : Disk
  places : Path.Places
  given : Given
  path : Option String
  profile : File
  overlay : File
  profile_read : ReadAs disk profile (profile? disk places.home)
  path_found : overlayPath disk places given = .ok path
  overlay_read : ReadAs disk overlay path

namespace Layers

variable (l : Layers)

def effective : Effective :=
  layer l.given ((File.empty.merge l.profile).merge l.overlay)

def load : Loader Effective :=
  Settings.load l.disk l.places l.given

end Layers

def settled (e : Effective) : Except Error Effective :=
  match e.flaw? with
  | some f => .error (.flawed f)
  | none => .ok e

theorem load_settles (l : Layers) : l.load.Ends (settled l.effective) := by
  refine ends_bind (ends_note _) (ends_bind (optional_loads l.profile_read) ?_)
  rw [l.path_found]
  refine ends_bind (ends_pure l.path) (ends_bind (optional_loads l.overlay_read)
    (ends_bind (ends_note _) ?_))
  rw [settled, Layers.effective]
  dsimp only
  generalize layer l.given ((File.empty.merge l.profile).merge l.overlay) = e
  cases e.flaw? with
  | none => exact ends_pure e
  | some f => exact fun _ => rfl

structure Effective.Sound (e : Effective) : Prop where
  url : Text.isBlankText e.store.url = false
  database : Text.isBlankText e.store.database = false
  timeoutSecs : e.store.timeoutSecs ≠ 0
  maxLimit : 1 ≤ e.query.maxLimit ∧ e.query.maxLimit ≤ 1000
  defaultLimit : 1 ≤ e.query.defaultLimit ∧ e.query.defaultLimit ≤ e.query.maxLimit
  topLimit : 1 ≤ e.query.topLimit ∧ e.query.topLimit ≤ 100

theorem in_range (n most : Nat) : inRange n most = true ↔ 1 ≤ n ∧ n ≤ most := by
  simp only [inRange, Bool.and_eq_true, decide_eq_true_eq]

theorem flaw_free (e : Effective) : e.flaw? = none ↔ e.Sound := by
  have check {p : Prop} [Decidable p] (f : Flaw) (o : Option Flaw) :
      (if p then some f else o) = none ↔ ¬p ∧ o = none := by
    by_cases hp : p <;> simp [hp]
  have listed : Limits.listedEvents = 1000 := rfl
  have top : Limits.topEvents = 100 := rfl
  simp only [Effective.flaw?, check, listed, top, Bool.not_eq_true', Bool.not_eq_true,
    Bool.not_eq_false, in_range, and_true]
  constructor
  · rintro ⟨hu, hd, ht, hm, hl, hn⟩
    exact ⟨hu, hd, ht, hm, hl, hn⟩
  · rintro ⟨hu, hd, ht, hm, hl, hn⟩
    exact ⟨hu, hd, ht, hm, hl, hn⟩

theorem settled_ok (e : Effective) : settled e = .ok e ↔ e.Sound := by
  rw [← flaw_free, settled]
  cases e.flaw? <;> simp

/-- Every setting is what the command line gives for it, else what the overlay has, else what the
profile has, else what is built in. What comes out alone decides whether it is accepted. -/
theorem settings_layered :
    (∀ (given : Given) (profile overlay : File) (s : Setting),
      s.effective (layer given ((File.empty.merge profile).merge overlay)) =
        (s.given given).or ((s.inFile overlay).or ((s.inFile profile).or s.builtIn))) ∧
    (∀ (text : String) (f : File), File.read text = .ok f →
      ∃ fields, Json.Located.whole readFields text = .ok fields ∧
        ∀ s : Setting, (s.written fields).mapM s.decode = .ok (s.inFile f)) ∧
    (∀ (f above : File) (s : Setting),
      s.inFile (f.merge above) = (s.inFile above).or (s.inFile f)) ∧
    (∀ (given : Given) (f g h : File),
      layer given ((f.merge g).merge h) = layer given (f.merge (g.merge h))) ∧
    (∀ (given : Given) (f blank : File), (∀ s : Setting, s.inFile blank = none) →
      layer given (f.merge blank) = layer given f ∧ layer given (blank.merge f) = layer given f) ∧
    (∀ l : Layers, (l.effective.Sound → l.load.Ends (.ok l.effective)) ∧
      (¬l.effective.Sound →
        ∃ f, l.effective.flaw? = some f ∧ l.load.Ends (.error (.flawed f)))) ∧
    ∀ l m : Layers, (∀ s : Setting, s.effective l.effective = s.effective m.effective) →
      ∀ r, l.load.Ends r ↔ m.load.Ends r := by
  refine ⟨?_, ?_, fun f above s => merge_setting s f above, ?_, ?_, ?_, ?_⟩
  · intro given profile overlay s
    have empty : s.inFile .empty = none := by cases s <;> rfl
    simp only [layer_setting, merge_setting, empty, Option.or_none, Option.or_assoc]
  · intro text f h
    obtain ⟨fields, hf, h⟩ := (Binder.except_bind _ _ _).mp h
    refine ⟨fields, hf, fun s => file_read ?_ s⟩
    cases hr : File.ofFields fields with
    | error m =>
      rw [hr] at h
      cases h
    | ok g =>
      rw [hr] at h
      obtain rfl := Except.ok.inj h
      rfl
  · intro given f g h
    refine layer_same fun s => ?_
    simp only [merge_setting, Option.or_assoc]
  · intro given f blank hb
    constructor
    · exact layer_same fun s => by rw [merge_setting, hb, Option.none_or]
    · exact layer_same fun s => by rw [merge_setting, hb, Option.or_none]
  · intro l
    have hl := load_settles l
    refine ⟨fun hs => ?_, fun hs => ?_⟩
    · rwa [(settled_ok _).mpr hs] at hl
    · obtain ⟨f, hf⟩ := Option.ne_none_iff_exists'.mp (mt (flaw_free _).mp hs)
      rw [settled, hf] at hl
      exact ⟨f, hf, hl⟩
  · intro l m h r
    have hl := load_settles l
    have hm := load_settles m
    rw [Setting.effective_ext h] at hl
    exact ⟨fun hr => ends_unique hl hr ▸ hm, fun hr => ends_unique hm hr ▸ hl⟩

def profileText : String :=
  "\x7b\"clickhouse\":\x7b\"user\":\"ann\",\"database\":\"old\"\x7d," ++
    "\"query\":\x7b\"max_limit\":50\x7d\x7d"

def profileFile : File :=
  ⟨some ⟨none, some "old", some "ann", none, none, none⟩, some ⟨none, some 50, none⟩, []⟩

def overlayText : String :=
  "\x7b\"query\":\x7b\"max_limit\":null,\"default_limit\":20\x7d," ++
    "\"clickhouse\":\x7b\"database\":\"new\"\x7d\x7d"

def overlayFile : File :=
  ⟨some ⟨none, some "new", none, none, none, none⟩, some ⟨some 20, none, none⟩, []⟩

theorem texts_read :
    File.read profileText = .ok profileFile ∧ File.read overlayText = .ok overlayFile := by
  have read {text : String} {f : File} (h : (File.read text).toOption = some f) :
      File.read text = .ok f := by
    cases hr : File.read text with
    | error m =>
      rw [hr] at h
      cases h
    | ok g =>
      rw [hr] at h
      exact congrArg Except.ok (Option.some.inj h)
  have profile : profileText.toList = _ :=
    Json.chars_append String.toList_ofList String.toList_ofList
  have overlay : overlayText.toList = _ :=
    Json.chars_append String.toList_ofList String.toList_ofList
  constructor <;> apply read <;> rw [File.read, Json.Located.whole, Json.tokens]
  · rw [profile]
    decide +kernel
  · rw [overlay]
    decide +kernel

def readerDisk : Disk
  | "/home/ann/.cohortql/cohortql.json" => .text profileText
  | "cohortql.json" | "/etc/reader.json" => .text overlayText
  | _ => .absent

/-- The same two files, under a command line that finds the overlay at `path`. -/
def readerLayers (given : Given) (path : String)
    (h : overlayPath readerDisk ⟨"/home/ann", "/work"⟩ given = .ok (some path))
    (hp : readerDisk path = .text overlayText) : Layers where
  disk := readerDisk
  places := ⟨"/home/ann", "/work"⟩
  given := given
  path := some path
  profile := profileFile
  overlay := overlayFile
  profile_read := ⟨profileText, rfl, texts_read.1⟩
  path_found := h
  overlay_read := ⟨overlayText, by rw [hp]; rfl, texts_read.2⟩

theorem reader_layered :
    let reader : Given := ⟨none, some "http://store:8123", none, none, none, none⟩
    let l := readerLayers reader "cohortql.json" rfl rfl
    let named := readerLayers { reader with config := some "/etc/reader.json" }
      "/etc/reader.json" rfl rfl
    let nowhere := readerLayers { reader with url := some " " } "cohortql.json" rfl rfl
    let e : Effective := ⟨⟨"http://store:8123", "new", some "ann", none, 30, true⟩, ⟨20, 50, 10⟩⟩
    let blank : File := ⟨some .empty, none, ["note"]⟩
    (File.read overlayText = .ok overlayFile ∧
      ∃ fields, Json.Located.whole readFields overlayText = .ok fields ∧
        ∀ s : Setting, (s.written fields).mapM s.decode = .ok (s.inFile overlayFile)) ∧
    ((∀ s : Setting, s.inFile blank = none) ∧
      layer reader (overlayFile.merge blank) = layer reader overlayFile) ∧
    (l.effective = e ∧ l.effective.Sound ∧ l.load.Ends (.ok e)) ∧
    (¬nowhere.effective.Sound ∧ nowhere.load.Ends (.error (.flawed .emptyUrl))) ∧
    (∀ s : Setting, s.effective l.effective = s.effective named.effective) ∧
      named.load.Ends (.ok e) := by
  intro reader l named nowhere e blank
  obtain ⟨-, texts, -, -, neutral, loads, alone⟩ := settings_layered
  have hb (s : Setting) : s.inFile blank = none := by cases s <;> rfl
  have hs : l.effective.Sound := (flaw_free _).mp (by decide)
  have hn : ¬nowhere.effective.Sound := mt (flaw_free _).mpr (by decide)
  have he : l.load.Ends (.ok e) := (loads l).1 hs
  have hd (s : Setting) : s.effective l.effective = s.effective named.effective := by
    cases s <;> rfl
  have hu : nowhere.effective.flaw? = some .emptyUrl := by decide
  obtain ⟨f, hf, hr⟩ := (loads nowhere).2 hn
  obtain rfl := Option.some.inj (hu.symm.trans hf)
  exact ⟨⟨texts_read.2, texts _ _ texts_read.2⟩, ⟨hb, (neutral _ _ _ hb).1⟩, ⟨rfl, hs, he⟩,
    ⟨hn, hr⟩, hd, (alone l named hd _).mp he⟩

end CohortQuery.Settings
