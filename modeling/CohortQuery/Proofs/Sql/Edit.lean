import CohortQuery.Proofs.Sql.Hole

/-!
# Changes of texts

A text that is put together from parts can be changed part by part if no change looks across the
end of a part. What a change does to a part is said with any text behind it, so that parts can be
put together again.
-/

set_option autoImplicit false

namespace CohortQuery.Sql

/-- A change of texts, and how many places of a text it changes. -/
structure Edit where
  text : List Char → List Char
  places : List Char → Nat

namespace Edit

/-- In front of any text, `s` becomes `t` by changes at `n` places. -/
def Turns (e : Edit) (n : Nat) (s t : String) : Prop :=
  ∀ rest, e.text (s.toList ++ rest) = t.toList ++ e.text rest ∧
    e.places (s.toList ++ rest) = n + e.places rest

abbrev Keeps (e : Edit) (s : String) : Prop :=
  e.Turns 0 s s

inductive TurnsAll (e : Edit) : Nat → List String → List String → Prop where
  | nil : TurnsAll e 0 [] []
  | cons {m n : Nat} {s t : String} {ss ts : List String} (h : e.Turns m s t)
      (hr : TurnsAll e n ss ts) : TurnsAll e (m + n) (s :: ss) (t :: ts)

end Edit

open Edit (Turns Keeps TurnsAll)

section

variable {e : Edit} {m n : Nat} {s t u v : String} {ss ts us vs : List String}

theorem turns_empty : e.Keeps "" :=
  fun _ => ⟨rfl, (Nat.zero_add _).symm⟩

theorem turns_append (hs : e.Turns m s t) (hu : e.Turns n u v) :
    e.Turns (m + n) (s ++ u) (t ++ v) := by
  intro rest
  obtain ⟨hst, hsp⟩ := hs (u.toList ++ rest)
  obtain ⟨hut, hup⟩ := hu rest
  rw [String.toList_append, String.toList_append, List.append_assoc, List.append_assoc, hst, hsp,
    hut, hup, Nat.add_assoc]
  exact ⟨rfl, rfl⟩

theorem turns_number (h : e.Turns m s t) (hn : m = n) : e.Turns n s t :=
  hn ▸ h

theorem turns_behind (hk : e.Keeps s) (h : e.Turns n u v) : e.Turns n (s ++ u) (s ++ v) :=
  turns_number (turns_append hk h) (Nat.zero_add n)

theorem turns_before (h : e.Turns n u v) (hk : e.Keeps s) : e.Turns n (u ++ s) (v ++ s) :=
  turns_append h hk

theorem turns_whole (h : e.Turns n s t) :
    e.text s.toList = t.toList ++ e.text [] ∧ e.places s.toList = n + e.places [] := by
  have hr := h []
  rwa [List.append_nil] at hr

theorem turns_all_append (hs : e.TurnsAll m ss ts) (hu : e.TurnsAll n us vs) :
    e.TurnsAll (m + n) (ss ++ us) (ts ++ vs) := by
  induction hs with
  | nil => rwa [Nat.zero_add]
  | cons h _ ih =>
    rw [Nat.add_assoc]
    exact .cons h ih

theorem keeps_all (h : ∀ s ∈ ss, e.Keeps s) : e.TurnsAll 0 ss ss := by
  induction ss with
  | nil => exact .nil
  | cons s ss ih => exact .cons (h s (by simp)) (ih fun u hu => h u (by simp [hu]))

theorem turns_join (hk : e.Keeps s) (h : e.TurnsAll n us vs) :
    e.Turns n (Text.join s us) (Text.join s vs) := by
  induction h with
  | nil => exact turns_empty
  | cons h hr ih =>
    cases hr with
    | nil => exact h
    | cons => exact turns_append (turns_before h hk) ih

theorem turns_clause {word : String} (hw : e.Keeps word) (hs : e.Keeps s)
    (h : e.TurnsAll n us vs) : e.Turns n (Select.clause word (Text.join s) us)
      (Select.clause word (Text.join s) vs) := by
  have hj := turns_join hs h
  cases h with
  | nil => exact turns_empty
  | cons => exact turns_behind hw hj

theorem turns_option {word : String} (hw : e.Keeps word) {o : Option String}
    (h : ∀ s ∈ o, e.Keeps s) : e.Keeps (Select.optionClause word o) := by
  cases o with
  | none => exact turns_empty
  | some s => exact turns_behind hw (h s rfl)

/-- What a change leaves as it is in every statement. -/
structure Edit.KeepsWords (e : Edit) : Prop where
  clauses : ∀ s ∈ ["SELECT ", "DISTINCT ", "*", " FROM ", " WHERE ", " GROUP BY ", " HAVING ",
    " ORDER BY ", " LIMIT ", " OFFSET "], e.Keeps s
  separators : ∀ s ∈ [", ", " AND "], e.Keeps s

theorem turns_select (hw : e.KeepsWords) (q : Select) (hq : ∀ s ∈ q.surroundings, e.Keeps s)
    (hc : e.TurnsAll m ss ts) (hg : e.TurnsAll n us vs) :
    e.Turns (m + n) { q with conditions := ss, groupConditions := us }.render
      { q with conditions := ts, groupConditions := vs }.render := by
  have hsource : e.Keeps q.source := hq _ (by simp [Select.surroundings])
  have hcolumns : ∀ s ∈ q.columns, e.Keeps s := fun s hs =>
    hq s (by simp [Select.surroundings, hs])
  have hgroups : ∀ s ∈ q.groups, e.Keeps s := fun s hs => hq s (by simp [Select.surroundings, hs])
  have horder : ∀ s ∈ q.order, e.Keeps s := fun s hs => hq s (by simp [Select.surroundings, hs])
  have hlimit : ∀ s ∈ q.limit, e.Keeps s := fun s hs => hq s (by simp_all [Select.surroundings])
  have hoffset : ∀ s ∈ q.offset, e.Keeps s := fun s hs => hq s (by simp_all [Select.surroundings])
  have hcomma := hw.separators ", " (by simp)
  have hdistinct : e.Keeps (if q.isDistinct then "DISTINCT " else "") := by
    split
    · exact hw.clauses _ (by simp)
    · exact turns_empty
  have hlist : e.Keeps (if q.columns.isEmpty then "*" else Select.listed q.columns) := by
    split
    · exact hw.clauses _ (by simp)
    · exact turns_join hcomma (keeps_all hcolumns)
  have opening := turns_before (turns_before (turns_before (turns_before
    (hw.clauses "SELECT " (by simp)) hdistinct) hlist) (hw.clauses " FROM " (by simp))) hsource
  have conditions := turns_append opening
    (turns_clause (hw.clauses " WHERE " (by simp)) (hw.separators " AND " (by simp)) hc)
  have groups := turns_before conditions
    (turns_clause (hw.clauses " GROUP BY " (by simp)) hcomma (keeps_all hgroups))
  have groupConditions := turns_append groups
    (turns_clause (hw.clauses " HAVING " (by simp)) (hw.separators " AND " (by simp)) hg)
  have order := turns_before groupConditions
    (turns_clause (hw.clauses " ORDER BY " (by simp)) hcomma (keeps_all horder))
  have whole := turns_before (turns_before order
    (turns_option (hw.clauses " LIMIT " (by simp)) hlimit))
    (turns_option (hw.clauses " OFFSET " (by simp)) hoffset)
  exact turns_number whole (by omega)

end

end CohortQuery.Sql
