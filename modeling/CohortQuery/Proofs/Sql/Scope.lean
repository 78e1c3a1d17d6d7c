import CohortQuery.Proofs.Sql.Formula
import CohortQuery.Sql.Select
import Mathlib.Data.List.TakeWhile

/-!
# Scopes of a statement

Each `SELECT` or `DELETE` of a text, in whatever parentheses, opens a scope with a `WHERE`
clause of its own. In a statement of clauses both are found again: its parts stand in the
text as they were given, and its conditions are the clause.
-/

set_option autoImplicit false

namespace CohortQuery.Sql

def Item.opensScope (i : Item) : Bool :=
  ["SELECT", "DELETE", "UNION"].any fun k => i.isWord k

def Item.endsWhere (i : Item) : Bool :=
  ["GROUP", "HAVING", "ORDER", "LIMIT", "OFFSET"].any fun k => i.isWord k

mutual

def Item.scopes : Item → List (List Item)
  | .token _ => []
  | .group is => scopesOf is

/-- What follows each word that opens a scope, up to the next such word beside it. -/
def scopesOf : List Item → List (List Item)
  | [] => []
  | i :: is =>
    (if i.opensScope then [is.takeWhile fun j => !j.opensScope] else []) ++ i.scopes ++
      scopesOf is

end

def Token.opensScope (t : Token) : Bool :=
  (Item.token t).opensScope

mutual

theorem item_scopes_count (i : Item) : (if i.opensScope then 1 else 0) + i.scopes.length =
    i.tokens.countP Token.opensScope := by
  match i with
  | .token t =>
    by_cases h : (Item.token t).opensScope <;>
      simp [Item.tokens, Item.scopes, Token.opensScope, h]
  | .group is =>
    have h := scopes_count is
    have ho : (Token.mark '(').opensScope = false := rfl
    have hc : (Token.mark ')').opensScope = false := rfl
    simp [Item.tokens, Item.scopes, h, ho, hc, Item.opensScope, Item.isWord]

/-- No word that opens a scope is missed. -/
theorem scopes_count (is : List Item) :
    (scopesOf is).length = (tokensOf is).countP Token.opensScope := by
  match is with
  | [] => rfl
  | i :: is =>
    have hi := item_scopes_count i
    have ht := scopes_count is
    rw [scopesOf, tokensOf, List.countP_append, List.length_append, List.length_append, ht, ← hi]
    split <;> rfl

end

def whereOf (scope : List Item) : Option (List Item) :=
  match scope.dropWhile fun i => !i.isWord "WHERE" with
  | [] => none
  | _ :: is => some (is.takeWhile fun i => !i.endsWhere)

/-- The condition on the rows of a statement, apart from the statements inside it. -/
def restriction (s : String) : Option Reading := do
  let scope ← (scopesOf (← read s)).head?
  formula (← whereOf scope)

theorem where_append (opening is closing : List Item)
    (ho : ∀ i ∈ opening, i.isWord "WHERE" = false) (hi : ∀ i ∈ is, i.endsWhere = false)
    (hc : ∀ i, closing.head? = some i → i.endsWhere = true) :
    whereOf (opening ++ word "WHERE" :: (is ++ closing)) = some is := by
  have hd : (opening ++ word "WHERE" :: (is ++ closing)).dropWhile
      (fun i => !i.isWord "WHERE") = word "WHERE" :: (is ++ closing) := by
    rw [List.dropWhile_append_of_pos (by simpa using ho)]
    rfl
  have ht : (is ++ closing).takeWhile (fun i => !i.endsWhere) = is := by
    rw [List.takeWhile_append_of_pos (by simpa using hi)]
    cases closing with
    | nil => simp
    | cons c cs => simp [hc c rfl]
  rw [whereOf, hd]
  exact congrArg some ht

def Item.Inert (i : Item) : Prop :=
  i.opensScope = false ∧ i.scopes = []

instance (i : Item) : Decidable i.Inert :=
  inferInstanceAs (Decidable (_ ∧ _))

theorem scopes_beside (is : List Item) (h : ∀ i ∈ is, i.opensScope = false) :
    scopesOf is = is.flatMap Item.scopes := by
  induction is with
  | nil => rfl
  | cons i is ih =>
    have hi : i.opensScope = false := h i (by simp)
    rw [scopesOf, ih (fun j hj => h j (by simp [hj])), hi]
    rfl

theorem scopes_inert (is : List Item) (h : ∀ i ∈ is, i.Inert) :
    is.flatMap Item.scopes = [] := by
  rw [List.flatMap_eq_nil_iff]
  exact fun i hi => (h i hi).2

theorem scopes_behind (is js : List Item) (h : ∀ i ∈ is, i.Inert) :
    scopesOf (is ++ js) = scopesOf js := by
  induction is with
  | nil => rfl
  | cons i is ih =>
    have hi := h i (by simp)
    rw [List.cons_append, scopesOf, hi.1, hi.2, ih fun j hj => h j (by simp [hj])]
    rfl

/-- The words that structure a statement outside of its parts. -/
def Item.isReserved (i : Item) : Bool :=
  i.opensScope || i.endsWhere || i.isWord "WHERE" || i.isWord "AND" || i.isWord "OR"

/-- No part of a statement takes a part of its structure for its own. -/
def Quiet (is : List Item) : Prop :=
  ∀ i ∈ is, i.isReserved = false

def Plain (is : List Item) : Prop :=
  ∀ i ∈ is, i.isReserved = false ∧ i.scopes = []

instance (is : List Item) : Decidable (Plain is) :=
  inferInstanceAs (Decidable (∀ i ∈ is, _ ∧ _))

/-- The items of a text; a text that cannot be read has none. -/
def phrase (s : String) : List Item :=
  (read s).getD []

def Legible (s : String) : Prop :=
  Reads false s (phrase s)

theorem phrase_reads {b : Bool} {s : String} {is : List Item} (h : Reads b s is) :
    phrase s = is := by
  rw [phrase, read_reads h]
  rfl

theorem legible_reads {b : Bool} {s : String} {is : List Item} (h : Reads b s is) :
    Legible s := by
  rw [Legible, phrase_reads h]
  cases b with
  | false => exact h
  | true => exact reads_open h false

/-- A text that may stand anywhere in a statement. -/
structure Part (s : String) : Prop where
  legible : Legible s
  plain : Plain (phrase s)

theorem part_reads {b : Bool} {s : String} {is : List Item} (h : Reads b s is)
    (hp : Plain is) : Part s := by
  refine ⟨legible_reads h, ?_⟩
  rwa [phrase_reads h]

def readChars (cs : List Char) : Option (List Item) :=
  (Lexer.run ⟨[], .between⟩ cs).finish.bind nest

theorem read_chars (cs : List Char) : read (String.ofList cs) = readChars cs := by
  rw [read, lex, String.toList_ofList]
  rfl

theorem phrase_has {P : List Item → Prop} {cs : List Char} (h : P ((readChars cs).getD [])) :
    P (phrase (String.ofList cs)) := by
  rwa [phrase, read_chars]

theorem part_constant {cs : List Char} (h : (readChars cs).any (fun is => Plain is) = true) :
    Part (String.ofList cs) := by
  rw [← read_chars] at h
  cases hs : read (String.ofList cs) with
  | none => simp [hs] at h
  | some is => exact part_reads (reads_read hs) (by simpa [hs] using h)

theorem quiet_plain {is : List Item} (h : Plain is) : Quiet is :=
  fun i hi => (h i hi).1

theorem reserved_not {i : Item} (h : i.isReserved = false) :
    i.opensScope = false ∧ i.endsWhere = false ∧ i.isWord "WHERE" = false ∧
      i.isWord "AND" = false ∧ i.isWord "OR" = false := by
  simpa [Item.isReserved, and_assoc] using h

theorem inert_plain {is : List Item} (h : Plain is) : ∀ i ∈ is, i.Inert :=
  fun i hi => ⟨(reserved_not (h i hi).1).1, (h i hi).2⟩

theorem scopes_between {separator : List Item} {iss : List (List Item)}
    (hs : separator.flatMap Item.scopes = []) :
    (between separator iss).flatMap Item.scopes = iss.flatMap fun is => is.flatMap Item.scopes := by
  induction iss with
  | nil => rfl
  | cons is iss ih =>
    cases iss with
    | nil => simp [between]
    | cons js jss => rw [between, List.flatMap_append, List.flatMap_append, hs, ih]; simp

def comma : List Item := [mark ',', blank]

def groupWords : List Item := [blank, word "GROUP", blank, word "BY", blank]

def orderWords : List Item := [blank, word "ORDER", blank, word "BY", blank]

def clauseItems (head separator : List Item) (es : List String) : List Item :=
  if es.isEmpty then [] else head ++ between separator (es.map phrase)

def optionItems (head : List Item) : Option String → List Item
  | none => []
  | some e => head ++ phrase e

namespace Select

def surroundings (q : Select) : List String :=
  q.source :: (q.columns ++ q.groups ++ q.groupConditions ++ q.order ++ q.limit.toList ++
    q.offset.toList)

def openingItems (q : Select) : List Item :=
  [blank] ++ (if q.isDistinct then [word "DISTINCT", blank] else []) ++
    (if q.columns.isEmpty then [mark '*'] else between comma (q.columns.map phrase)) ++
    spaced "FROM" ++ phrase q.source

def closingItems (q : Select) : List Item :=
  clauseItems groupWords comma q.groups ++
    clauseItems (spaced "HAVING") (spaced "AND") q.groupConditions ++
    clauseItems orderWords comma q.order ++
    optionItems (spaced "LIMIT") q.limit ++ optionItems (spaced "OFFSET") q.offset

def scope (q : Select) : List Item :=
  q.openingItems ++ clauseItems (spaced "WHERE") (spaced "AND") q.conditions ++ q.closingItems

def items (q : Select) : List Item :=
  word "SELECT" :: q.scope

end Select

theorem reads_empty (b : Bool) : Reads b "" [] :=
  reads_open (reads_constant (by decide) nests_nil) b

theorem reads_behind {s t : String} {is js : List Item} (hs : Reads false s is)
    (ht : Reads false t js) (hm : t = "" ∨ StartsApart t) : Reads false (s ++ t) (is ++ js) := by
  rcases hm with rfl | hm
  · have hj : js = [] := (phrase_reads ht).symm.trans (phrase_reads (reads_empty false))
    simpa [hj] using hs
  · exact reads_append hs ht (.inr hm)

theorem starts_apart_append (s t : String) (h : StartsApart s) : StartsApart (s ++ t) := by
  unfold StartsApart at *
  rw [String.toList_append]
  cases hs : s.toList with
  | nil => simp [hs] at h
  | cons c cs => simpa [hs] using h

theorem reads_join {separator : String} {is : List Item} (hr : Reads true separator is)
    (ha : StartsApart separator) (es : List String) (h : ∀ e ∈ es, Legible e) :
    Reads false (Text.join separator es) (between is (es.map phrase)) := by
  induction es with
  | nil => exact reads_empty false
  | cons e es ih =>
    have he : Legible e := h e (by simp)
    cases es with
    | nil => exact he
    | cons f fs =>
      have ht := ih (fun g hg => h g (by simp [hg]))
      have hs : Reads true (e ++ separator) (phrase e ++ is) := reads_append he hr (.inr ha)
      exact reads_append hs ht (.inl rfl)

theorem reads_comma : Reads true ", " comma :=
  reads_constant (by decide) fun _ _ _ => rfl

theorem reads_and : Reads true " AND " (spaced "AND") :=
  reads_constant (by decide) fun _ _ _ => rfl

section

variable {s head separator : String} {is hs js : List Item}

theorem reads_clause (hi : Reads false s is) (hh : Reads true head hs) (hha : StartsApart head)
    (hr : Reads true separator js) (ha : StartsApart separator) (es : List String)
    (h : ∀ e ∈ es, Legible e) :
    Reads false (s ++ Select.clause head (Text.join separator) es)
      (is ++ clauseItems hs js es) := by
  unfold Select.clause clauseItems
  cases es with
  | nil => exact reads_behind hi (reads_empty false) (.inl rfl)
  | cons e es =>
    have hj := reads_append hh (reads_join hr ha (e :: es) h) (.inl rfl)
    exact reads_behind hi hj (.inr (starts_apart_append _ _ hha))

theorem reads_option (hi : Reads false s is) (hh : Reads true head hs) (hha : StartsApart head)
    (e : Option String) (h : ∀ t ∈ e.toList, Legible t) :
    Reads false (s ++ Select.optionClause head e) (is ++ optionItems hs e) := by
  cases e with
  | none => exact reads_behind hi (reads_empty false) (.inl rfl)
  | some t =>
    have hj := reads_append hh (h t (by simp)) (.inl rfl)
    exact reads_behind hi hj (.inr (starts_apart_append _ _ hha))

end

theorem reads_distinct (d : Bool) :
    Reads true (if d then "DISTINCT " else "") (if d then [word "DISTINCT", blank] else []) := by
  cases d with
  | false => exact reads_empty true
  | true => exact reads_constant (by decide) fun _ _ _ => rfl

theorem reads_columns (es : List String) (h : ∀ e ∈ es, Legible e) :
    Reads false (if es.isEmpty then "*" else Select.listed es)
      (if es.isEmpty then [mark '*'] else between comma (es.map phrase)) := by
  cases es with
  | nil => exact reads_open (reads_constant (by decide) fun _ _ _ => rfl) false
  | cons e es => exact reads_join reads_comma rfl (e :: es) h

theorem reads_opening (q : Select) (hc : ∀ e ∈ q.columns, Legible e) (hs : Legible q.source) :
    Reads false ("SELECT " ++ (if q.isDistinct then "DISTINCT " else "") ++
      (if q.columns.isEmpty then "*" else Select.listed q.columns) ++ " FROM " ++ q.source)
      (word "SELECT" :: q.openingItems) := by
  have hstart : Reads true "SELECT " [word "SELECT", blank] :=
    reads_constant (by decide) fun _ _ _ => rfl
  have hfrom : Reads true " FROM " (spaced "FROM") :=
    reads_constant (by decide) fun _ _ _ => rfl
  have hd := reads_append hstart (reads_distinct q.isDistinct) (.inl rfl)
  have hl := reads_append hd (reads_columns q.columns hc) (.inl rfl)
  exact reads_append (reads_append hl hfrom (.inr rfl)) hs (.inl rfl)

theorem select_reads (q : Select) (h : ∀ e ∈ q.surroundings ++ q.conditions, Legible e) :
    Reads false q.render q.items := by
  simp only [Select.surroundings, List.mem_append, List.mem_cons] at h
  have hwhere : Reads true " WHERE " (spaced "WHERE") :=
    reads_constant (by decide) fun _ _ _ => rfl
  have hgroup : Reads true " GROUP BY " groupWords :=
    reads_constant (by decide) fun _ _ _ => rfl
  have hhaving : Reads true " HAVING " (spaced "HAVING") :=
    reads_constant (by decide) fun _ _ _ => rfl
  have horder : Reads true " ORDER BY " orderWords :=
    reads_constant (by decide) fun _ _ _ => rfl
  have hlimit : Reads true " LIMIT " (spaced "LIMIT") :=
    reads_constant (by decide) fun _ _ _ => rfl
  have hoffset : Reads true " OFFSET " (spaced "OFFSET") :=
    reads_constant (by decide) fun _ _ _ => rfl
  have ho := reads_opening q (fun e he => h e (by simp [he])) (h q.source (by simp))
  have hw := reads_clause ho hwhere rfl reads_and rfl q.conditions (fun e he => h e (by simp [he]))
  have hg := reads_clause hw hgroup rfl reads_comma rfl q.groups (fun e he => h e (by simp [he]))
  have hh := reads_clause hg hhaving rfl reads_and rfl q.groupConditions
    (fun e he => h e (by simp [he]))
  have hb := reads_clause hh horder rfl reads_comma rfl q.order (fun e he => h e (by simp [he]))
  have hl := reads_option hb hlimit rfl q.limit (fun e he => h e (by simp [he]))
  have hf := reads_option hl hoffset rfl q.offset (fun e he => h e (by simp [he]))
  have hi : q.items = word "SELECT" :: q.openingItems ++
      clauseItems (spaced "WHERE") (spaced "AND") q.conditions ++
      clauseItems groupWords comma q.groups ++
      clauseItems (spaced "HAVING") (spaced "AND") q.groupConditions ++
      clauseItems orderWords comma q.order ++ optionItems (spaced "LIMIT") q.limit ++
      optionItems (spaced "OFFSET") q.offset := by
    simp [Select.items, Select.scope, Select.closingItems]
  rw [hi]
  exact hf

theorem plain_append {is js : List Item} (hi : Plain is) (hj : Plain js) : Plain (is ++ js) := by
  intro i h
  rcases List.mem_append.mp h with h | h
  · exact hi i h
  · exact hj i h

section

variable {P : Item → Prop}

theorem all_clause {head separator : List Item} (es : List String) (hh : ∀ i ∈ head, P i)
    (hr : ∀ i ∈ separator, P i) (h : ∀ e ∈ es, ∀ i ∈ phrase e, P i) :
    ∀ i ∈ clauseItems head separator es, P i := by
  unfold clauseItems
  split
  · simp
  · intro i hi
    rcases List.mem_append.mp hi with hi | hi
    · exact hh i hi
    · refine all_between hr ?_ i hi
      intro is his
      obtain ⟨e, he, rfl⟩ := List.mem_map.mp his
      exact h e he

theorem all_option {head : List Item} (o : Option String) (hh : ∀ i ∈ head, P i)
    (h : ∀ e ∈ o.toList, ∀ i ∈ phrase e, P i) : ∀ i ∈ optionItems head o, P i := by
  intro i hi
  cases o with
  | none => simp [optionItems] at hi
  | some e =>
    rcases List.mem_append.mp (show i ∈ head ++ phrase e from hi) with hi | hi
    · exact hh i hi
    · exact h e (by simp) i hi

def openingWords : List Item :=
  [blank, word "DISTINCT", mark '*', mark ',', word "FROM"]

def closingWords : List Item :=
  [blank, mark ',', word "GROUP", word "BY", word "HAVING", word "AND", word "ORDER",
    word "LIMIT", word "OFFSET"]

variable (q : Select) (hs : ∀ e ∈ q.surroundings, ∀ i ∈ phrase e, P i)

include hs

theorem all_opening (hw : ∀ i ∈ openingWords, P i) : ∀ i ∈ q.openingItems, P i := by
  have known {is : List Item} (h : is ⊆ openingWords) : ∀ i ∈ is, P i := fun i hi => hw i (h hi)
  have hd : ∀ i ∈ if q.isDistinct then [word "DISTINCT", blank] else [], P i := by
    split
    · exact known (by simp [openingWords])
    · simp
  have hl : ∀ i ∈ if q.columns.isEmpty then [mark '*']
      else between comma (q.columns.map phrase), P i := by
    split
    · exact known (by simp [openingWords])
    · apply all_between (known (by simp [comma, openingWords]))
      intro is his
      obtain ⟨e, he, rfl⟩ := List.mem_map.mp his
      exact hs e (by simp [Select.surroundings, he])
  have hf : ∀ i ∈ phrase q.source, P i := hs q.source (by simp [Select.surroundings])
  intro i hi
  simp only [Select.openingItems, List.mem_append] at hi
  rcases hi with (((hi | hi) | hi) | hi) | hi
  · exact known (by simp [openingWords]) i hi
  · exact hd i hi
  · exact hl i hi
  · exact known (by simp [spaced, openingWords]) i hi
  · exact hf i hi

theorem all_closing (hw : ∀ i ∈ closingWords, P i) : ∀ i ∈ q.closingItems, P i := by
  have known {is : List Item} (h : is ⊆ closingWords) : ∀ i ∈ is, P i := fun i hi => hw i (h hi)
  have hc : ∀ i ∈ comma, P i := known (by simp [comma, closingWords])
  have ha : ∀ i ∈ spaced "AND", P i := known (by simp [spaced, closingWords])
  have part {e : String} (he : e ∈ q.columns ++ q.groups ++ q.groupConditions ++ q.order ++
      q.limit.toList ++ q.offset.toList) : ∀ i ∈ phrase e, P i :=
    hs e (List.mem_cons_of_mem _ he)
  simp only [List.mem_append] at part
  intro i hi
  simp only [Select.closingItems, List.mem_append] at hi
  rcases hi with (((hi | hi) | hi) | hi) | hi
  · exact all_clause _ (known (by simp [groupWords, closingWords])) hc
      (fun e he => part (by simp [he])) i hi
  · exact all_clause _ (known (by simp [spaced, closingWords])) ha
      (fun e he => part (by simp [he])) i hi
  · exact all_clause _ (known (by simp [orderWords, closingWords])) hc
      (fun e he => part (by simp [he])) i hi
  · exact all_option _ (known (by simp [spaced, closingWords]))
      (fun e he => part (by simp [he])) i hi
  · exact all_option _ (known (by simp [spaced, closingWords]))
      (fun e he => part (by simp [he])) i hi

end

def Ends (is : List Item) : Prop :=
  is = [] ∨ ∃ i js, is = blank :: i :: js ∧ i.endsWhere = true

theorem ends_append {is js : List Item} (hi : Ends is) (hj : Ends js) : Ends (is ++ js) := by
  rcases hi with rfl | ⟨i, ks, rfl, hk⟩
  · exact hj
  · exact .inr ⟨i, ks ++ js, rfl, hk⟩

theorem ends_clause (i : Item) (head separator : List Item) (es : List String)
    (hi : i.endsWhere = true) : Ends (clauseItems (blank :: i :: head) separator es) := by
  cases es with
  | nil => exact .inl rfl
  | cons e es => exact .inr ⟨i, head ++ between separator ((e :: es).map phrase), rfl, hi⟩

theorem ends_option (i : Item) (head : List Item) (e : Option String)
    (hi : i.endsWhere = true) : Ends (optionItems (blank :: i :: head) e) := by
  cases e with
  | none => exact .inl rfl
  | some t => exact .inr ⟨i, head ++ phrase t, rfl, hi⟩

theorem ends_closing (q : Select) : Ends q.closingItems := by
  unfold Select.closingItems
  refine ends_append (ends_append (ends_append (ends_append ?_ ?_) ?_) ?_) ?_
  · exact ends_clause (word "GROUP") _ _ _ rfl
  · exact ends_clause (word "HAVING") _ _ _ rfl
  · exact ends_clause (word "ORDER") _ _ _ rfl
  · exact ends_option (word "LIMIT") _ _ rfl
  · exact ends_option (word "OFFSET") _ _ rfl

theorem formula_blanks (is js : List Item) (hj : ∀ j ∈ js, j.isBlank = true) :
    formula (blank :: (is ++ js)) = formula is := by
  have ht : withoutBlanks (pieces js) = [] := by
    simpa [withoutBlanks, pieces_map] using hj
  have hc : blank :: (is ++ js) = [blank] ++ is ++ js := rfl
  rw [formula, hc, bare_append, bare_append, ht, List.append_nil]
  rfl

section

variable (q : Select) (hs : ∀ e ∈ q.surroundings, Plain (phrase e))
  (hc : ∀ e ∈ q.conditions, Quiet (phrase e))

include hs

theorem plain_opening : Plain q.openingItems := by
  have hw : Plain openingWords := by decide
  exact all_opening q hs hw

theorem inert_closing : ∀ i ∈ q.closingItems, i.Inert := by
  have hw : ∀ i ∈ closingWords, i.Inert := by decide
  exact all_closing q (fun e he => inert_plain (hs e he)) hw

include hc

theorem scope_closed : ∀ i ∈ q.scope, i.opensScope = false := by
  intro i hi
  simp only [Select.scope, List.mem_append] at hi
  rcases hi with (hi | hi) | hi
  · exact (inert_plain (plain_opening q hs) i hi).1
  · unfold clauseItems at hi
    split at hi
    · simp at hi
    · rcases List.mem_append.mp hi with hi | hi
      · exact (by decide : ∀ j ∈ spaced "WHERE", j.opensScope = false) i hi
      · rcases mem_between hi with hi | ⟨is, his, hi⟩
        · exact (by decide : ∀ j ∈ spaced "AND", j.opensScope = false) i hi
        · obtain ⟨e, he, rfl⟩ := List.mem_map.mp his
          exact (reserved_not (hc e he i hi)).1
  · exact (inert_closing q hs i hi).1

theorem select_scopes : scopesOf q.items =
    q.scope :: q.conditions.flatMap fun e => (phrase e).flatMap Item.scopes := by
  have hall : q.scope.takeWhile (fun j => !j.opensScope) = q.scope := by
    rw [List.takeWhile_eq_self_iff]
    intro i hi
    rw [scope_closed q hs hc i hi]
    rfl
  have ho := scopes_inert q.openingItems (inert_plain (plain_opening q hs))
  have hl := scopes_inert q.closingItems (inert_closing q hs)
  have hw : (clauseItems (spaced "WHERE") (spaced "AND") q.conditions).flatMap Item.scopes =
      q.conditions.flatMap fun e => (phrase e).flatMap Item.scopes := by
    unfold clauseItems
    split
    · next he => simp [List.isEmpty_iff.mp he]
    · rw [List.flatMap_append, scopes_between rfl, List.flatMap_map]
      rfl
  rw [Select.items, scopesOf, hall, scopes_beside q.scope (scope_closed q hs hc), Select.scope,
    List.flatMap_append, List.flatMap_append, ho, hl, hw]
  simp [word, Item.opensScope, Item.isWord, Item.scopes]

theorem select_where (hn : q.conditions ≠ []) : ∃ is, whereOf q.scope = some is ∧
    formula is = formula (between (spaced "AND") (q.conditions.map phrase)) := by
  obtain ⟨blanks, closing, hcl, hb, he⟩ : ∃ blanks closing, q.closingItems = blanks ++ closing ∧
      (∀ i ∈ blanks, i = blank) ∧ ∀ i, closing.head? = some i → i.endsWhere = true := by
    rcases ends_closing q with h | ⟨i, js, h, hi⟩
    · exact ⟨[], [], h, by simp, by simp⟩
    · exact ⟨[blank], i :: js, h, by simp, by simpa using hi⟩
  let conditions := between (spaced "AND") (q.conditions.map phrase)
  have hsplit : q.scope = (q.openingItems ++ [blank]) ++
      word "WHERE" :: ((blank :: (conditions ++ blanks)) ++ closing) := by
    simp [Select.scope, clauseItems, hn, spaced, hcl, conditions]
  have hopen : ∀ i ∈ q.openingItems ++ [blank], i.isWord "WHERE" = false := by
    intro i hi
    have hp := plain_append (plain_opening q hs) (by decide : Plain [blank])
    exact (reserved_not (hp i hi).1).2.2.1
  have hend : ∀ i ∈ blank :: (conditions ++ blanks), i.endsWhere = false := by
    intro i hi
    simp only [List.mem_cons, List.mem_append] at hi
    rcases hi with rfl | hi | hi
    · rfl
    · rcases mem_between hi with hi | ⟨is, his, hi⟩
      · exact (by decide : ∀ j ∈ spaced "AND", j.endsWhere = false) i hi
      · obtain ⟨e, he, rfl⟩ := List.mem_map.mp his
        exact (reserved_not (hc e he i hi)).2.1
    · rw [hb i hi]
      rfl
  refine ⟨blank :: (conditions ++ blanks), ?_, formula_blanks conditions blanks ?_⟩
  · rw [hsplit, where_append _ _ _ hopen hend he]
  · intro i hi
    rw [hb i hi]
    rfl

theorem select_formula (fs : List Reading) (hn : q.conditions ≠ [])
    (hf : List.Forall₂ (fun e f => Operand (phrase e) f) q.conditions fs) :
    ∃ is, whereOf q.scope = some is ∧ formula is = some (.all fs) := by
  obtain ⟨is, hw, hi⟩ := select_where q hs hc hn
  have hp : List.Forall₂ Operand (q.conditions.map phrase) fs := by
    rwa [List.forall₂_map_left_iff]
  exact ⟨is, hw, by rw [hi, formula_and _ fs hp (by simpa using hn)]⟩

end

end CohortQuery.Sql
