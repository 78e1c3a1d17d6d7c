import CohortQuery.Proofs.Sql.Quotation
import CohortQuery.Proofs.Sql.Table

/-!
# The dictionary of the schema

The statement of the dictionary holds a selection and the credentials as literals. They are read
back as they are configured, and no text of the settings reaches beyond its literal. In the
selection the database stands without quotes, so it is read back only if it needs none.
-/

set_option autoImplicit false

namespace CohortQuery.Store.Schema

open Sql (Lacks Quotation Unquoted quotations endsIn literalBehind?)

def selected : String :=
  "SELECT project_id, distinct_id, argMax(person_id, version) AS person_id FROM "

def grouped : String :=
  ".person_overrides GROUP BY project_id, distinct_id"

def selection (database : String) : String :=
  selected ++ database ++ grouped

def opening : String :=
  "\n" ++ Text.join "\n" [
    "CREATE DICTIONARY IF NOT EXISTS person_overrides_dict (",
    "    project_id          UUID,",
    "    distinct_id         String,",
    "    person_id           String",
    ")",
    "PRIMARY KEY project_id, distinct_id",
    "SOURCE(CLICKHOUSE("] ++ "QUERY "

def closing : String :=
  Text.join "\n" ["))", "LAYOUT(COMPLEX_KEY_HASHED())", "LIFETIME(MIN 30 MAX 60)"] ++ "\n"

def marks : List Char :=
  ['\'', '\x7b', '?']

theorem lacks_marks {c : Char} (hc : c ∈ marks) (cs : List Char)
    (h : '\'' ∉ cs ∧ '\x7b' ∉ cs ∧ '?' ∉ cs) : Lacks c (String.ofList cs) := by
  simp only [marks, List.mem_cons, List.not_mem_nil, or_false] at hc
  refine Sql.lacks_chars cs ?_
  rcases hc with rfl | rfl | rfl
  · exact h.1
  · exact h.2.1
  · exact h.2.2

theorem opening_lacks {c : Char} (hc : c ∈ marks) : Lacks c opening := by
  have fixed := lacks_marks hc
  have edge : Lacks c "\n" := fixed _ (by decide)
  refine (edge.append (edge.join _ ?_)).append (fixed _ (by decide))
  simp only [List.forall_mem_cons]
  exact ⟨fixed _ (by decide), fixed _ (by decide), fixed _ (by decide), fixed _ (by decide),
    fixed _ (by decide), fixed _ (by decide), fixed _ (by decide), List.forall_mem_nil _⟩

theorem closing_lacks {c : Char} (hc : c ∈ marks) : Lacks c closing := by
  have fixed := lacks_marks hc
  have edge : Lacks c "\n" := fixed _ (by decide)
  refine (edge.join _ ?_).append edge
  simp only [List.forall_mem_cons]
  exact ⟨fixed _ (by decide), fixed _ (by decide), fixed _ (by decide), List.forall_mem_nil _⟩

theorem literal_selection (database : String) :
    literal (selection database) = selected ++ literal database ++ grouped := by
  have hs : literal selected = selected := Sql.literal_chars _ (by decide)
  have hg : literal grouped = grouped := Sql.literal_chars _ (by decide)
  rw [selection, Sql.literal_append, Sql.literal_append, hs, hg]

theorem quoted_selected :
    "QUERY 'SELECT project_id, distinct_id, argMax(person_id, version) AS person_id FROM " =
      "QUERY " ++ ("'" ++ selected) :=
  (Sql.joined_chars (by rfl)).trans (congrArg ("QUERY " ++ ·) (Sql.joined_chars rfl))

theorem quoted_grouped :
    ".person_overrides GROUP BY project_id, distinct_id'" = grouped ++ "'" :=
  Sql.joined_chars rfl

theorem source_text (s : Settings.Store) : dictionarySource s =
    "QUERY " ++ ("'" ++ (literal (selection s.database) ++ ("'" ++
      (credential "USER" s.user ++ credential "PASSWORD" s.password)))) := by
  unfold dictionarySource
  rw [literal_selection, quoted_selected, quoted_grouped]
  simp only [String.append_assoc]

theorem dictionary_text (s : Settings.Store) : dictionary s =
    opening ++ ("'" ++ (literal (selection s.database) ++ ("'" ++
      (credential "USER" s.user ++ (credential "PASSWORD" s.password ++ closing))))) := by
  simp only [dictionary, source_text, statement, opening, closing, Text.join, String.append_assoc]

def credentialQuoted (word : String) (o : Option String) : List Quotation :=
  (o.map (Quotation.mk (" " ++ word ++ " "))).toList

theorem credential_quotations {word : String} (hw : Unquoted word) (o : Option String)
    {rest behind : String} {quoted : List Quotation}
    (hr : quotations rest = some (quoted, behind)) :
    quotations (credential word o ++ rest) = some (credentialQuoted word o ++ quoted, behind) := by
  cases o with
  | none => simpa [credential, credentialQuoted] using hr
  | some value =>
    have blank : Unquoted " " :=
      ⟨Sql.lacks_chars _ (by decide), Sql.lacks_chars _ (by decide)⟩
    have written := Sql.quotations_written ((blank.append hw).append blank) value hr
    have text : credential word (some value) ++ rest =
        " " ++ word ++ " " ++ ("'" ++ (literal value ++ ("'" ++ rest))) := by
      apply String.toList_inj.mp
      simp [credential, String.toList_append]
    rw [text, written]
    rfl

theorem dictionary_quotations (s : Settings.Store) : quotations (dictionary s) =
    some (⟨opening, selection s.database⟩ ::
      (credentialQuoted "USER" s.user ++ credentialQuoted "PASSWORD" s.password), closing) := by
  have user : Unquoted "USER" := ⟨Sql.lacks_chars _ (by decide), Sql.lacks_chars _ (by decide)⟩
  have password : Unquoted "PASSWORD" :=
    ⟨Sql.lacks_chars _ (by decide), Sql.lacks_chars _ (by decide)⟩
  have front : Unquoted opening := ⟨opening_lacks (by decide), opening_lacks (by decide)⟩
  have rest : Unquoted closing := ⟨closing_lacks (by decide), closing_lacks (by decide)⟩
  have behind := credential_quotations user s.user (credential_quotations password s.password
    (Sql.unquoted_quotations rest))
  rw [dictionary_text, Sql.quotations_written front _ behind, List.append_nil]

theorem opening_ends : "QUERY ".toList <:+ opening.toList := by
  rw [opening, String.toList_append]
  exact List.suffix_append _ _

theorem opening_query : endsIn "QUERY" opening = true :=
  List.isSuffixOf_iff_suffix.mpr opening_ends

theorem opening_other {word : String} (hw : ¬(word ++ " ").toList <:+ "QUERY ".toList)
    (hq : ¬"QUERY ".toList <:+ (word ++ " ").toList) : endsIn word opening = false := by
  rw [← Bool.not_eq_true, endsIn, List.isSuffixOf_iff_suffix]
  exact fun h => (List.suffix_or_suffix_of_suffix h opening_ends).elim hw hq

theorem credential_find (word other : String) (o : Option String) :
    ((credentialQuoted other o).find? (endsIn word ·.before)).map Quotation.value =
      if endsIn word (" " ++ other ++ " ") then o else none := by
  cases o with
  | none => simp [credentialQuoted]
  | some v => cases h : endsIn word (" " ++ other ++ " ") <;> simp [credentialQuoted, h]

theorem literal_behind (word : String) (s : Settings.Store) :
    literalBehind? word (dictionary s) =
      if endsIn word opening then some (selection s.database)
      else (if endsIn word (" " ++ "USER" ++ " ") then s.user else none).or
        (if endsIn word (" " ++ "PASSWORD" ++ " ") then s.password else none) := by
  rw [literalBehind?, dictionary_quotations, ← credential_find, ← credential_find,
    ← Option.map_or, ← List.find?_append]
  cases h : endsIn word opening <;> simp [h]

theorem literal_query (s : Settings.Store) :
    literalBehind? "QUERY" (dictionary s) = some (selection s.database) := by
  rw [literal_behind, if_pos opening_query]

theorem literal_user (s : Settings.Store) : literalBehind? "USER" (dictionary s) = s.user := by
  have user : endsIn "USER" (" " ++ "USER" ++ " ") = true := by decide
  have password : ¬endsIn "USER" (" " ++ "PASSWORD" ++ " ") = true := by decide
  rw [literal_behind, opening_other (by decide) (by decide), if_neg Bool.false_ne_true, if_pos user,
    if_neg password, Option.or_none]

theorem literal_password (s : Settings.Store) :
    literalBehind? "PASSWORD" (dictionary s) = s.password := by
  have user : ¬endsIn "PASSWORD" (" " ++ "USER" ++ " ") = true := by decide
  have password : endsIn "PASSWORD" (" " ++ "PASSWORD" ++ " ") = true := by decide
  rw [literal_behind, opening_other (by decide) (by decide), if_neg Bool.false_ne_true, if_neg user,
    if_pos password, Option.none_or]

theorem dictionary_injective {s t : Settings.Store} (h : dictionary s = dictionary t) :
    s.database = t.database ∧ s.user = t.user ∧ s.password = t.password := by
  refine ⟨?_, ?_, ?_⟩
  · have query : some (selection s.database) = some (selection t.database) := by
      rw [← literal_query, ← literal_query, h]
    have same := congrArg String.toList (Option.some.inj query)
    simp only [selection, String.toList_append] at same
    exact String.toList_inj.mp (List.append_cancel_left (List.append_cancel_right same))
  · rw [← literal_user, ← literal_user, h]
  · rw [← literal_password, ← literal_password, h]

/-- The literals of the dictionary stand for the selection and the credentials as they are
configured. What stands between them does not depend on what they hold. -/
theorem dictionary_quoted (s : Settings.Store) :
    (statements s)[3]? = some (dictionary s) ∧
    quotations (dictionary s) = some
      (⟨opening, selected ++ s.database ++ grouped⟩ ::
        (credentialQuoted "USER" s.user ++ credentialQuoted "PASSWORD" s.password), closing) ∧
    literalBehind? "QUERY" (dictionary s) = some (selection s.database) ∧
    literalBehind? "USER" (dictionary s) = s.user ∧
    literalBehind? "PASSWORD" (dictionary s) = s.password :=
  ⟨rfl, dictionary_quotations s, literal_query s, literal_user s, literal_password s⟩

theorem grouped_pointed : Sql.Pointed grouped :=
  Sql.pointed_chars _ (by decide)

theorem selected_front (s : String) :
    Sql.tableOf? (selected ++ s) = (Sql.lexemes s).bind Sql.tableAt? :=
  Sql.table_front (a := .word ['F', 'R', 'O', 'M']) (by decide +kernel) (by decide +kernel) s

theorem selection_table (database : String) :
    Sql.tableOf? (selection database) = some ⟨some database, "person_overrides"⟩ ↔
      Sql.isBareName database.toList = true := by
  rw [selection, String.append_assoc, selected_front]
  exact Sql.table_pointed (a := .word ['G', 'R', 'O', 'U', 'P']) grouped_pointed
    (by decide +kernel) (by decide) (by decide) database

/-- The selection in the dictionary is from the table of the overrides in the configured database
just if the database is a name that needs no quotes. -/
theorem dictionary_table (s : Settings.Store) :
    ∃ query, literalBehind? "QUERY" (dictionary s) = some query ∧
      (Sql.tableOf? query = some ⟨some s.database, "person_overrides"⟩ ↔
        Sql.isBareName s.database.toList = true) :=
  ⟨selection s.database, literal_query s, selection_table s.database⟩

/-- Settings that are accepted with a database whose name needs quotes. -/
theorem dashed_database :
    let e : Settings.Effective :=
      ⟨⟨"http://localhost:8123", "my-db", none, none, 30, true⟩, ⟨100, 1000, 10⟩⟩
    e.flaw? = none ∧
      ¬∃ query, literalBehind? "QUERY" (dictionary e.store) = some query ∧
        Sql.tableOf? query = some ⟨some "my-db", "person_overrides"⟩ := by
  refine ⟨by decide +kernel, ?_⟩
  rintro ⟨query, hq, found⟩
  obtain rfl := Option.some.inj ((literal_query _).symm.trans hq)
  have bare := (selection_table "my-db").mp found
  revert bare
  decide

end CohortQuery.Store.Schema
