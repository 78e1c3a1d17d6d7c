import CohortQuery.Proofs.Store.Conversation
import CohortQuery.Proofs.Text.Numeral
import CohortQuery.Store.Migration
import Mathlib.Data.Finset.Insert

/-!
# The catalogue

The store as migrations see it: the objects that are there and the recorded version of the schema.
A statement is told by its words. Any request may fail, before its work is done or behind it, and
nothing is said of when a store refuses one.
-/

set_option autoImplicit false

namespace CohortQuery

theorem digit_word {c : Char} (h : c.isDigit = true) : c.isWhitespace = false := by
  rw [Bool.eq_false_iff]
  intro hw
  simp only [Char.isWhitespace, Bool.or_eq_true, decide_eq_true_eq] at hw
  rcases hw with ((rfl | rfl) | rfl) | rfl <;> cases h

namespace Store

structure Catalogue where
  objects : Finset String
  version : Option Int

/-- What a statement asks of the catalogue. -/
inductive Upkeep where
  /-- Whether there is such a table. -/
  | find (table : String)
  | recorded
  | create (object : String)
  | record (version : Int)
  deriving DecidableEq

namespace Upkeep

def frontWord (cs : List Char) : List Char :=
  (cs.dropWhile Char.isWhitespace).takeWhile (!Char.isWhitespace ·)

def behindWord (cs : List Char) : List Char :=
  (cs.dropWhile Char.isWhitespace).dropWhile (!Char.isWhitespace ·)

/-- The first words of a text; the empty ones are behind its end. -/
def words : Nat → List Char → List String
  | 0, _ => []
  | n + 1, cs => String.ofList (frontWord cs) :: words n (behindWord cs)

def ofWords? : List String → Option Upkeep
  | "CREATE" :: "TABLE" :: "IF" :: "NOT" :: "EXISTS" :: name :: _
  | "CREATE" :: "DICTIONARY" :: "IF" :: "NOT" :: "EXISTS" :: name :: _ => some (create name)
  | "SELECT" :: "count()" :: ">" :: "0" :: "FROM" :: "system.tables" :: "WHERE" :: "database" ::
      "=" :: "currentDatabase()" :: "AND" :: "name" :: "=" :: name :: _ =>
    some (find (String.ofList (name.toList.filter (· ≠ '\''))))
  | "SELECT" :: "version" :: "FROM" :: "schema_version" :: "FINAL" :: "WHERE" :: "id" :: "=" ::
      "1" :: _ => some recorded
  | "INSERT" :: "INTO" :: "schema_version" :: "(id," :: "version," :: "applied_at," ::
      "description)" :: "VALUES" :: "(1," :: version :: _ =>
    (Text.readSigned (version.toList.takeWhile (· ≠ ','))).map record
  | _ => none

def read (sql : String) : Option Upkeep :=
  ofWords? (words 14 sql.toList)

def run (c : Catalogue) : Upkeep → Catalogue × Table
  | find table => (c, .flags [decide (table ∈ c.objects)])
  | recorded => (c, .versions c.version.toList)
  | create object => ({ c with objects := insert object c.objects }, .nothing)
  | record version => ({ c with version := some version }, .nothing)

theorem read_chars {cs ds : List Char} {u : Upkeep} (h : ofWords? (words 14 (cs ++ ds)) = some u) :
    read (String.ofList cs ++ String.ofList ds) = some u := by
  rw [read, String.toList_append, String.toList_ofList, String.toList_ofList, h]

theorem front_append {cs : List Char} (h : behindWord cs ≠ []) (ds : List Char) :
    frontWord (cs ++ ds) = frontWord cs ∧ behindWord (cs ++ ds) = behindWord cs ++ ds := by
  have hw : cs.dropWhile Char.isWhitespace ≠ [] := by
    intro hn
    rw [behindWord, hn] at h
    exact h rfl
  have hd : (cs ++ ds).dropWhile Char.isWhitespace = cs.dropWhile Char.isWhitespace ++ ds := by
    rw [List.dropWhile_append, if_neg (by simpa using hw)]
  unfold frontWord behindWord at *
  rw [hd]
  generalize cs.dropWhile Char.isWhitespace = ws at h hw
  have hs : (ws.takeWhile (!Char.isWhitespace ·)).length ≠ ws.length := by
    intro he
    have hl := congrArg List.length (List.takeWhile_append_dropWhile
      (p := (!Char.isWhitespace ·)) (l := ws))
    rw [List.length_append] at hl
    exact h (List.length_eq_zero_iff.mp (by omega))
  constructor
  · rw [List.takeWhile_append, if_neg hs]
  · rw [List.dropWhile_append, if_neg (by simpa using h)]

theorem words_append (n : Nat) {cs : List Char} (h : behindWord^[n] cs ≠ []) (m : Nat)
    (ds : List Char) :
    words (n + m) (cs ++ ds) = words n cs ++ words m (behindWord^[n] cs ++ ds) := by
  induction n generalizing cs with
  | zero => rw [Nat.zero_add, words, List.nil_append, Function.iterate_zero, id]
  | succ n ih =>
    rw [Function.iterate_succ_apply] at h ⊢
    have hc : behindWord cs ≠ [] := by
      intro hn
      rw [hn] at h
      exact h (Function.iterate_fixed rfl n)
    obtain ⟨hf, hb⟩ := front_append hc ds
    rw [Nat.succ_add, words, hf, hb, ih h, words, List.cons_append]

theorem front_word {w : List Char} (hn : w ≠ []) (hw : ∀ c ∈ w, c.isWhitespace = false)
    (tail : List Char) : frontWord (' ' :: w ++ ' ' :: tail) = w := by
  obtain ⟨c, cs, rfl⟩ := List.exists_cons_of_ne_nil hn
  have hb : (' ' :: (c :: cs) ++ ' ' :: tail).dropWhile Char.isWhitespace =
      (c :: cs) ++ ' ' :: tail := by
    have hc := hw c List.mem_cons_self
    have hs : ' '.isWhitespace = true := by decide
    simp only [List.cons_append, List.dropWhile_cons, hs, hc, if_true]
    simp
  rw [frontWord, hb, List.takeWhile_append_of_pos (by simpa using hw)]
  simp [Char.isWhitespace]

theorem probe_read : read Migration.probe.sql = some (.find "schema_version") :=
  read_chars (by decide)

theorem recorded_read : read Migration.recorded.sql = some .recorded := by
  have hr {cs : List Char} (h : ofWords? (words 14 cs) = some .recorded) :
      read (String.ofList cs) = some .recorded := by
    rw [read, String.toList_ofList, h]
  exact hr (by decide)

theorem created_read {cs : List Char} {object : String} (hq : '?' ∉ cs)
    (hw : words 6 ('\n' :: cs) = ["CREATE", "TABLE", "IF", "NOT", "EXISTS", object] ∨
      words 6 ('\n' :: cs) = ["CREATE", "DICTIONARY", "IF", "NOT", "EXISTS", object])
    (hb : behindWord^[6] ('\n' :: cs) ≠ []) {line : String} {lines : List String} {text : String}
    (ht : Template.expand (Schema.statement (String.ofList cs :: line :: lines)) = .ok text) :
    read text = some (.create object) := by
  have hl : '?' ∉ '\n' :: cs := by simpa using hq
  have hs : (Schema.statement (String.ofList cs :: line :: lines)).toList =
      ('\n' :: cs) ++ ("\n" ++ Text.join "\n" (line :: lines) ++ "\n").toList := by
    simp [Schema.statement, Text.join, String.toList_append]
  have he : ∃ ds, text.toList = ('\n' :: cs) ++ ds := by
    rw [Template.expand, hs, expand_chars_append hl] at ht
    cases hd : Template.expandChars ("\n" ++ Text.join "\n" (line :: lines) ++ "\n").toList with
    | error f =>
      rw [hd] at ht
      cases ht
    | ok ds =>
      rw [hd] at ht
      obtain rfl := Except.ok.inj ht
      exact ⟨ds, String.toList_ofList⟩
  obtain ⟨ds, hd⟩ := he
  rw [read, hd, words_append 6 hb 8]
  rcases hw with hw | hw <;> rw [hw] <;> rfl

def openingWords : List String :=
  ["INSERT", "INTO", "schema_version", "(id,", "version,", "applied_at,", "description)", "VALUES",
    "(1,"]

/-- A template with four arguments, of which none is beside another one. -/
theorem bind_four {front template : String} {cs : List Char} (hq : '?' ∉ cs)
    (hf : front.toList = cs)
    (ht : template.toList = cs ++ ['?', ',', ' ', '?', ',', ' ', '?', ',', ' ', '?', ')'])
    (first second third fourth : String) :
    Template.expand (Template.bind [first, second, third, fourth] template) =
      .ok (front ++ (first ++ (", " ++ (second ++ (", " ++ (third ++ (", " ++
        (fourth ++ ")")))))))) := by
  have mark : '?' ∉ [',', ' '] := by decide
  have between (args : List String) (ds : List Char) : Template.bindChars args (',' :: ' ' :: ds) =
      [',', ' '] ++ Template.bindChars args ds :=
    bind_append mark args ds
  have separated (ds : List Char) : Template.expandChars ([',', ' '] ++ ds) =
      (Template.expandChars ds).map ([',', ' '] ++ ·) :=
    expand_chars_append mark ds
  have closing : Template.bindChars [] [')'] = [')'] := rfl
  have closed : Template.expandChars [')'] = .ok [')'] := rfl
  rw [Template.expand, Template.bind, String.toList_ofList, ht,
    bind_append hq, expand_chars_append hq, bind_mark _ _ (by decide), expand_unmarked,
    between, separated, bind_mark _ _ (by decide), expand_unmarked,
    between, separated, bind_mark _ _ (by decide), expand_unmarked,
    between, separated, bind_mark _ _ (by decide), expand_unmarked, closing, closed]
  refine congrArg Except.ok (String.toList_inj.mp ?_)
  simp [String.toList_append, hf]

theorem record_expand (clock : String) (v : Int) (description : String) :
    Template.expand (Migration.record clock v description).sql = .ok
      ("INSERT INTO schema_version (id, version, applied_at, description) VALUES (1, " ++
        (Text.signedNumeral v ++ (", " ++
          (clock ++ (", '" ++ (Template.escapeText description ++ "')")))))) := by
  have opening (rest : String) :
      "INSERT INTO schema_version (id, version, applied_at, description) VALUES (" ++
        ("1" ++ (", " ++ rest)) =
      "INSERT INTO schema_version (id, version, applied_at, description) VALUES (1, " ++ rest := by
    rw [← String.append_assoc, ← String.append_assoc]
    rfl
  have quoted : ", " ++ ("'" ++ Template.escapeText description ++ "'" ++ ")") =
      ", '" ++ (Template.escapeText description ++ "')") := by
    simp only [String.append_assoc]
    rw [← String.append_assoc]
    rfl
  rw [← opening, ← quoted]
  simp only [Migration.record]
  refine bind_four ?_ String.toList_ofList ?_ _ _ _ _
  · decide
  · exact String.toList_ofList

theorem recording_words (version : String) (rest : List String) :
    ofWords? (openingWords ++ version :: rest) =
      (Text.readSigned (version.toList.takeWhile (· ≠ ','))).map record := by
  rfl

theorem opening_read {cs : List Char} (hw : words 9 cs = openingWords)
    (hb : behindWord^[9] cs = [' ']) (tail : String) :
    read (String.ofList cs ++ tail) = ofWords? (openingWords ++ words 5 (' ' :: tail.toList)) := by
  rw [read, String.toList_append, String.toList_ofList, words_append 9 (by simp [hb]) 5, hw, hb]
  rfl

theorem record_read {clock : String} {v : Int} {description text : String}
    (h : Template.expand (Migration.record clock v description).sql = .ok text) :
    read text = some (.record v) := by
  obtain rfl := Except.ok.inj ((record_expand clock v description).symm.trans h)
  generalize clock ++ (", '" ++ (Template.escapeText description ++ "')")) = tail
  have blank (c : Char) (h : c ∈ (Text.signedNumeral v).toList ++ [',']) :
      c.isWhitespace = false := by
    rcases List.mem_append.mp h with h | h
    · rcases Text.signed_chars v c h with hd | rfl
      · exact digit_word hd
      · decide
    · obtain rfl := List.mem_singleton.mp h
      decide
  have comma (c : Char) (h : c ∈ (Text.signedNumeral v).toList) : decide (c ≠ ',') = true := by
    rcases Text.signed_chars v c h with hd | rfl
    · rw [decide_eq_true_eq]
      rintro rfl
      cases hd
    · decide
  have hs : ' ' :: (Text.signedNumeral v ++ (", " ++ tail)).toList =
      ' ' :: ((Text.signedNumeral v).toList ++ [',']) ++ ' ' :: tail.toList := by
    simp [String.toList_append]
  refine (opening_read (by decide) (by decide) _).trans ?_
  rw [hs, words, front_word (by simp) blank, recording_words, String.toList_ofList,
    List.takeWhile_append_of_pos comma]
  have hv : (Text.signedNumeral v).toList ++ [','].takeWhile (fun c => decide (c ≠ ',')) =
      (Text.signedNumeral v).toList := by
    simp
  rw [hv, Text.signed_read]
  rfl

end Upkeep

namespace Migration

def objects : List String :=
  ["schema_version", "events", "person_overrides", "person_overrides_dict", "cohort_members"]

def Creates (sql object : String) : Prop :=
  ∀ text, Template.expand sql = .ok text → Upkeep.read text = some (.create object)

theorem statements_create (settings : Settings.Store) :
    List.Forall₂ Creates (Schema.statements settings) objects := by
  have versions : Creates Schema.versionTable "schema_version" := fun text ht =>
    Upkeep.created_read (by decide) (.inl (by decide)) (by decide) ht
  have events : Creates Schema.eventsTable "events" := fun text ht =>
    Upkeep.created_read (by decide) (.inl (by decide)) (by decide) ht
  have overrides : Creates Schema.overridesTable "person_overrides" := fun text ht =>
    Upkeep.created_read (by decide) (.inl (by decide)) (by decide) ht
  have dictionary : Creates (Schema.dictionary settings) "person_overrides_dict" := fun text ht =>
    Upkeep.created_read (by decide) (.inr (by decide)) (by decide) ht
  have members : Creates Schema.membersTable "cohort_members" := fun text ht =>
    Upkeep.created_read (by decide) (.inl (by decide)) (by decide) ht
  exact .cons versions (.cons events (.cons overrides (.cons dictionary (.cons members .nil))))

end Migration

inductive Table.Opens : Table → Table → Prop where
  | nothing : Table.Opens .nothing .nothing
  | flags {rows all : List Bool} (h : rows <+: all) : Table.Opens (.flags rows) (.flags all)
  | versions {rows all : List Int} (h : rows <+: all) :
      Table.Opens (.versions rows) (.versions all)

def Reply.IsRefused (reply : Reply) : Prop :=
  ∃ f, reply.table? = .error f

/-- How a request may be answered, and the catalogue that is left. -/
inductive Answers (r : Request) (c : Catalogue) : Reply → Catalogue → Prop where
  | served {u : Upkeep} (hu : Upkeep.read r.sql = some u) :
      Answers r c (.rows (u.run c).2 none) (u.run c).1
  | broken {u : Upkeep} {rows : Table} {m : Catalogue} (f : ClientFault)
      (hu : Upkeep.read r.sql = some u) (hr : rows.Opens (u.run c).2)
      (hm : m = (u.run c).1 ∨ m = c) : Answers r c (.rows rows (some f)) m
  | lost {u : Upkeep} {reply : Reply} (hu : Upkeep.read r.sql = some u) (hr : reply.IsRefused) :
      Answers r c reply (u.run c).1
  | refused {reply : Reply} (hr : reply.IsRefused) : Answers r c reply c

inductive Answered : Catalogue → List Turn → Catalogue → Prop where
  | nil (c : Catalogue) : Answered c [] c
  | cons {c m l : Catalogue} {t : Turn} {ts : List Turn} (h : Answers t.request c t.reply m)
      (ht : Answered m ts l) : Answered c (t :: ts) l

theorem answered_append {c l : Catalogue} {ts us : List Turn} :
    Answered c (ts ++ us) l ↔ ∃ m, Answered c ts m ∧ Answered m us l := by
  induction ts generalizing c with
  | nil =>
    constructor
    · exact fun h => ⟨c, .nil c, h⟩
    · rintro ⟨_, ⟨⟩, h⟩
      exact h
  | cons t ts ih =>
    constructor
    · intro h
      cases h with
      | cons h ht =>
        obtain ⟨m, hm, hl⟩ := ih.mp ht
        exact ⟨m, .cons h hm, hl⟩
    · rintro ⟨m, hm, hl⟩
      cases hm with
      | cons h ht => exact .cons h (ih.mpr ⟨m, ht, hl⟩)

/-- What a statement asks for is done if the reply comes to its end; else it may be done or not. -/
theorem answers_left {r : Request} {c m : Catalogue} {reply : Reply} (h : Answers r c reply m)
    {u : Upkeep} (hu : Upkeep.read r.sql = some u) :
    m = (u.run c).1 ∨ m = c ∧ ¬reply.IsWhole := by
  cases h with
  | served hr | lost hr _ =>
    obtain rfl := Option.some.inj (hu.symm.trans hr)
    exact .inl rfl
  | broken f hr _ hm =>
    obtain rfl := Option.some.inj (hu.symm.trans hr)
    exact hm.imp_right fun hm => ⟨hm, fun ⟨_, he⟩ => nomatch he⟩
  | refused hr =>
    obtain ⟨f, hf⟩ := hr
    refine .inr ⟨rfl, ?_⟩
    rintro ⟨table, rfl⟩
    cases hf

theorem answers_reply {r : Request} {c m : Catalogue} {reply : Reply} (h : Answers r c reply m)
    {u : Upkeep} (hu : Upkeep.read r.sql = some u) :
    reply = .rows (u.run c).2 none ∨
      (∃ rows f, reply = .rows rows (some f) ∧ rows.Opens (u.run c).2) ∨ reply.IsRefused := by
  cases h with
  | served hr =>
    obtain rfl := Option.some.inj (hu.symm.trans hr)
    exact .inl rfl
  | broken f hr ho _ =>
    obtain rfl := Option.some.inj (hu.symm.trans hr)
    exact .inr (.inl ⟨_, f, rfl, ho⟩)
  | lost _ hn | refused hn => exact .inr (.inr hn)

theorem answers_kept {r : Request} {c m : Catalogue} {reply : Reply} (h : Answers r c reply m)
    {u : Upkeep} (hu : Upkeep.read r.sql = some u) (hk : (u.run c).1 = c) : m = c := by
  rcases answers_left h hu with hm | ⟨hm, _⟩
  · exact hm.trans hk
  · exact hm

end Store

end CohortQuery
