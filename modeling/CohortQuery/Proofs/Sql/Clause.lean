import CohortQuery.Proofs.Cohort.Statement

/-!
# Clauses of a statement

The clauses of a statement are found again by their keywords. Each ends where the next one
begins; what stands before the first is the head of the statement.
-/

set_option autoImplicit false

namespace CohortQuery

namespace Sql

def clauseWords : List String :=
  ["FROM", "WHERE", "GROUP", "HAVING", "ORDER", "LIMIT", "OFFSET"]

def Item.startsClause (i : Item) : Bool :=
  clauseWords.any fun k => i.isWord k

def headOf (scope : List Item) : List Item :=
  scope.takeWhile fun i => !i.startsClause

/-- What stands behind the keyword in a scope, up to the next clause. -/
def clauseOf (keyword : String) (scope : List Item) : Option (List Item) :=
  match scope.dropWhile fun i => !i.isWord keyword with
  | [] => none
  | _ :: is => some (is.takeWhile fun i => !i.startsClause)

def Clauseless (is : List Item) : Prop :=
  ∀ i ∈ is, i.startsClause = false

instance (is : List Item) : Decidable (Clauseless is) :=
  inferInstanceAs (Decidable (∀ i ∈ is, i.startsClause = false))

theorem clauseless_append {is js : List Item} (hi : Clauseless is) (hj : Clauseless js) :
    Clauseless (is ++ js) := by
  intro i h
  rcases List.mem_append.mp h with h | h
  · exact hi i h
  · exact hj i h

theorem clauseless_word {is : List Item} (h : Clauseless is) {keyword : String}
    (hk : keyword ∈ clauseWords) : ∀ i ∈ is, i.isWord keyword = false := by
  intro i hi
  have hc := h i hi
  simp only [Item.startsClause, List.any_eq_false] at hc
  simpa using hc keyword hk

def Padded (is padded : List Item) : Prop :=
  ∃ before after, padded = before ++ is ++ after ∧ (∀ i ∈ before, i.isBlank = true) ∧
    ∀ i ∈ after, i.isBlank = true

theorem padded_formula {is padded : List Item} (h : Padded is padded) :
    formula padded = formula is := by
  have hb {js : List Item} (hj : ∀ j ∈ js, j.isBlank = true) : withoutBlanks (pieces js) = [] := by
    simpa [withoutBlanks, pieces_map] using hj
  obtain ⟨before, after, rfl, hf, ha⟩ := h
  rw [formula, formula, bare_append, bare_append, hb hf, hb ha, List.nil_append, List.append_nil]

def clauseList (clauses : List (String × List Item)) : List Item :=
  clauses.flatMap fun (keyword, body) => spaced keyword ++ body

theorem list_starts (clauses : List (String × List Item))
    (h : ∀ c ∈ clauses, c.1 ∈ clauseWords) : clauseList clauses = [] ∨
      ∃ i rest, clauseList clauses = blank :: i :: rest ∧ i.startsClause = true := by
  cases clauses with
  | nil => exact .inl rfl
  | cons c cs =>
    obtain ⟨keyword, body⟩ := c
    have hs : ∀ k ∈ clauseWords, (word k).startsClause = true := by decide
    refine .inr ⟨word keyword, blank :: (body ++ clauseList cs), by simp [clauseList, spaced], ?_⟩
    exact hs keyword (h (keyword, body) (by simp))

theorem clause_append {keyword : String} {before is after : List Item}
    (hk : (word keyword).isWord keyword = true) (hb : ∀ i ∈ before, i.isWord keyword = false)
    (hi : Clauseless is) (ha : ∀ i, after.head? = some i → i.startsClause = true) :
    clauseOf keyword (before ++ word keyword :: (is ++ after)) = some is := by
  have hd : (before ++ word keyword :: (is ++ after)).dropWhile
      (fun i => !i.isWord keyword) = word keyword :: (is ++ after) := by
    rw [List.dropWhile_append_of_pos (by simpa using hb), List.dropWhile_cons_of_neg (by simp [hk])]
  have hp : ∀ i ∈ is, (!i.startsClause) = true := fun i h => by simp [hi i h]
  have ht : (is ++ after).takeWhile (fun i => !i.startsClause) = is := by
    rw [List.takeWhile_append_of_pos hp]
    cases after with
    | nil => simp
    | cons c cs => simp [ha c rfl]
  rw [clauseOf, hd]
  exact congrArg some ht

theorem clause_words : ∀ j ∈ clauseWords, ∀ k ∈ clauseWords,
    (word j).isWord k = decide (j = k) := by
  decide

theorem first_clause {keyword : String} (hk : keyword ∈ clauseWords) {head body : List Item}
    (hh : ∀ i ∈ head, i.isWord keyword = false) (hbody : Clauseless body)
    {clauses : List (String × List Item)} (hc : ∀ c ∈ clauses, c.1 ∈ clauseWords) :
    ∃ is, clauseOf keyword (head ++ clauseList ((keyword, body) :: clauses)) = some is ∧
      Padded body is := by
  -- the blank in front of the next keyword still belongs to this clause
  obtain ⟨after, closing, hl, ha, hcl⟩ : ∃ after closing, clauseList clauses = after ++ closing ∧
      (∀ i ∈ after, i = blank) ∧ ∀ i, closing.head? = some i → i.startsClause = true := by
    rcases list_starts clauses hc with h | ⟨i, rest, h, hi⟩
    · exact ⟨[], [], h, by simp, by simp⟩
    · exact ⟨[blank], i :: rest, h, by simp, by simpa using hi⟩
  have hsplit : head ++ clauseList ((keyword, body) :: clauses) =
      (head ++ [blank]) ++ word keyword :: (([blank] ++ body ++ after) ++ closing) := by
    rw [clauseList, List.flatMap_cons, ← clauseList, hl]
    simp [spaced]
  have hbefore : ∀ i ∈ head ++ [blank], i.isWord keyword = false := by
    intro i hi
    rcases List.mem_append.mp hi with hi | hi
    · exact hh i hi
    · obtain rfl := List.mem_singleton.mp hi
      rfl
  have hin : Clauseless ([blank] ++ body ++ after) := by
    refine clauseless_append (clauseless_append (by decide) hbody) ?_
    intro i hi
    rw [ha i hi]
    rfl
  have hblank : ∀ i ∈ after, i.isBlank = true := by
    intro i hi
    rw [ha i hi]
    rfl
  refine ⟨_, ?_, [blank], after, rfl, by decide, hblank⟩
  rw [hsplit, clause_append (by simp [clause_words keyword hk keyword hk]) hbefore hin hcl]

theorem clause_found {keyword : String} (hk : keyword ∈ clauseWords) {head : List Item}
    (hh : ∀ i ∈ head, i.isWord keyword = false) (clauses : List (String × List Item))
    (hc : ∀ c ∈ clauses, c.1 ∈ clauseWords ∧ Clauseless c.2) :
    match clauses.lookup keyword with
    | none => clauseOf keyword (head ++ clauseList clauses) = none
    | some body => ∃ is, clauseOf keyword (head ++ clauseList clauses) = some is ∧
        Padded body is := by
  induction clauses generalizing head with
  | nil =>
    have hd : head.dropWhile (fun i => !i.isWord keyword) = [] := by
      rw [List.dropWhile_eq_nil_iff]
      simpa using hh
    simp [clauseOf, clauseList, hd]
  | cons c cs ih =>
    obtain ⟨k, body⟩ := c
    obtain ⟨hkw, hbody⟩ := hc (k, body) (by simp)
    have hrest : ∀ c ∈ cs, c.1 ∈ clauseWords ∧ Clauseless c.2 := fun c h => hc c (by simp [h])
    by_cases he : keyword = k
    · subst he
      rw [List.lookup_cons, beq_self_eq_true]
      exact first_clause hk hh hbody fun c h => (hrest c h).1
    · -- the clause goes to the head
      have hne : (keyword == k) = false := by simpa using he
      have hhead : ∀ i ∈ head ++ (spaced k ++ body), i.isWord keyword = false := by
        intro i hi
        simp only [spaced, List.mem_append, List.mem_cons, List.not_mem_nil, or_false] at hi
        rcases hi with hi | (rfl | rfl | rfl) | hi
        · exact hh i hi
        · rfl
        · rw [clause_words k hkw keyword hk]
          simpa using Ne.symm he
        · rfl
        · exact clauseless_word hbody hk i hi
      have hr := ih hhead hrest
      rw [List.append_assoc] at hr
      rwa [List.lookup_cons, hne]

theorem head_found {head : List Item} (hh : Clauseless head)
    (clauses : List (String × List Item)) (hc : ∀ c ∈ clauses, c.1 ∈ clauseWords) :
    ∃ after, headOf (head ++ clauseList clauses) = head ++ after ∧
      ∀ i ∈ after, i.isBlank = true := by
  have hp : ∀ i ∈ head, (!i.startsClause) = true := fun i hi => by simp [hh i hi]
  rw [headOf, List.takeWhile_append_of_pos hp]
  rcases list_starts clauses hc with h | ⟨i, rest, h, hi⟩
  · exact ⟨[], by simp [h], by simp⟩
  · refine ⟨[blank], ?_, by decide⟩
    rw [h, List.takeWhile_cons_of_pos rfl, List.takeWhile_cons_of_neg (by simp [hi])]

def clauseIn (keyword : String) (opening separator : List Item) (es : List String) :
    List (String × List Item) :=
  if es.isEmpty then [] else [(keyword, opening ++ between separator (es.map phrase))]

def optionIn (keyword : String) (e : Option String) : List (String × List Item) :=
  e.toList.map fun e => (keyword, phrase e)

def byItems : List Item := [word "BY", blank]

namespace Select

def heading (q : Select) : List Item :=
  [blank] ++ (if q.isDistinct then [word "DISTINCT", blank] else []) ++
    (if q.columns.isEmpty then [mark '*'] else between comma (q.columns.map phrase))

def clauses (q : Select) : List (String × List Item) :=
  ("FROM", phrase q.source) :: (clauseIn "WHERE" [] (spaced "AND") q.conditions ++
    clauseIn "GROUP" byItems comma q.groups ++
    clauseIn "HAVING" [] (spaced "AND") q.groupConditions ++
    clauseIn "ORDER" byItems comma q.order ++ optionIn "LIMIT" q.limit ++
    optionIn "OFFSET" q.offset)

end Select

theorem scope_clauses (q : Select) : q.scope = q.heading ++ clauseList q.clauses := by
  have hc (keyword : String) (opening separator : List Item) (es : List String) :
      clauseItems (spaced keyword ++ opening) separator es =
        clauseList (clauseIn keyword opening separator es) := by
    cases es <;> simp [clauseItems, clauseIn, clauseList]
  have ho (keyword : String) (e : Option String) :
      optionItems (spaced keyword) e = clauseList (optionIn keyword e) := by
    cases e <;> simp [optionItems, optionIn, clauseList]
  have hw := hc "WHERE" [] (spaced "AND") q.conditions
  have hg := hc "GROUP" byItems comma q.groups
  have hh := hc "HAVING" [] (spaced "AND") q.groupConditions
  have hr := hc "ORDER" byItems comma q.order
  rw [List.append_nil] at hw hh
  have hgw : spaced "GROUP" ++ byItems = groupWords := rfl
  have how : spaced "ORDER" ++ byItems = orderWords := rfl
  rw [hgw] at hg
  rw [how] at hr
  rw [Select.scope, Select.openingItems, Select.closingItems, hw, hg, hh, hr, ho, ho,
    Select.heading, Select.clauses]
  simp [clauseList]

/-- No part of the statement has a keyword of a clause. -/
def Tidy (q : Select) : Prop :=
  ∀ e ∈ q.surroundings ++ q.conditions, Clauseless (phrase e)

section

variable {q : Select} (h : Tidy q)

include h

theorem tidy_between {es : List String} {separator : List Item}
    (he : es ⊆ q.surroundings ++ q.conditions) (hs : Clauseless separator) :
    Clauseless (between separator (es.map phrase)) := by
  refine all_between hs ?_
  intro is his
  obtain ⟨e, hm, rfl⟩ := List.mem_map.mp his
  exact h e (he hm)

theorem tidy_heading : Clauseless q.heading := by
  have hd : Clauseless (if q.isDistinct then [word "DISTINCT", blank] else []) := by
    split <;> decide
  have hc : Clauseless (if q.columns.isEmpty then [mark '*']
      else between comma (q.columns.map phrase)) := by
    split
    · decide
    · refine tidy_between h ?_ (by decide)
      intro e he
      simp [Select.surroundings, he]
  exact clauseless_append (clauseless_append (by decide) hd) hc

theorem tidy_clauses : ∀ c ∈ q.clauses, c.1 ∈ clauseWords ∧ Clauseless c.2 := by
  have known {keyword : String} {opening separator : List Item} {es : List String}
      (hk : keyword ∈ clauseWords) (ho : Clauseless opening) (hs : Clauseless separator)
      (he : ∀ e ∈ es, e ∈ q.surroundings ++ q.conditions) :
      ∀ c ∈ clauseIn keyword opening separator es, c.1 ∈ clauseWords ∧ Clauseless c.2 := by
    intro c hc
    unfold clauseIn at hc
    split at hc
    · cases hc
    · obtain rfl := List.mem_singleton.mp hc
      exact ⟨hk, clauseless_append ho (tidy_between h he hs)⟩
  have option {keyword : String} {e : Option String} (hk : keyword ∈ clauseWords)
      (he : ∀ s ∈ e, s ∈ q.surroundings ++ q.conditions) :
      ∀ c ∈ optionIn keyword e, c.1 ∈ clauseWords ∧ Clauseless c.2 := by
    intro c hc
    obtain ⟨s, hs, rfl⟩ := List.mem_map.mp hc
    exact ⟨hk, h s (he s (by simpa using hs))⟩
  intro c hc
  simp only [Select.clauses, List.mem_cons, List.mem_append] at hc
  rcases hc with rfl | ((((hc | hc) | hc) | hc) | hc) | hc
  · exact ⟨(by decide : "FROM" ∈ clauseWords), h q.source (by simp [Select.surroundings])⟩
  · exact known (by decide) (by decide) (by decide) (fun e he => by simp [he]) c hc
  · exact known (by decide) (by decide) (by decide)
      (fun e he => by simp [Select.surroundings, he]) c hc
  · exact known (by decide) (by decide) (by decide)
      (fun e he => by simp [Select.surroundings, he]) c hc
  · exact known (by decide) (by decide) (by decide)
      (fun e he => by simp [Select.surroundings, he]) c hc
  · exact option (by decide)
      (fun s hs => by simp [Select.surroundings, Option.mem_def.mp hs]) c hc
  · exact option (by decide)
      (fun s hs => by simp [Select.surroundings, Option.mem_def.mp hs]) c hc

theorem select_clause {keyword : String} (hk : keyword ∈ clauseWords) :
    match q.clauses.lookup keyword with
    | none => clauseOf keyword q.scope = none
    | some body => ∃ is, clauseOf keyword q.scope = some is ∧ Padded body is := by
  rw [scope_clauses]
  exact clause_found hk (clauseless_word (tidy_heading h) hk) q.clauses (tidy_clauses h)

end

def trimBlanks (is : List Item) : List Item :=
  ((is.dropWhile Item.isBlank).reverse.dropWhile Item.isBlank).reverse

/-- The text of a clause of the first statement in a text, without the blanks around it. -/
def clauseText (keyword sql : String) : Option String := do
  let scope ← (scopesOf (← read sql)).head?
  let is ← clauseOf keyword scope
  return String.ofList (spell (tokensOf (trimBlanks is)))

structure Solid (is : List Item) : Prop where
  front : is.head?.any (fun i => !i.isBlank) = true
  back : is.getLast?.any (fun i => !i.isBlank) = true

theorem trim_padded {is padded : List Item} (h : Padded is padded) (hs : Solid is) :
    trimBlanks padded = is := by
  have front {js ks : List Item} (hj : js.head?.any (fun i => !i.isBlank) = true)
      (hk : ∀ i ∈ ks, i.isBlank = true) : (ks ++ js).dropWhile Item.isBlank = js := by
    rw [List.dropWhile_append_of_pos hk]
    cases js with
    | nil => cases hj
    | cons j js => exact List.dropWhile_cons_of_neg (by simpa using hj)
  obtain ⟨before, after, rfl, hb, ha⟩ := h
  have hn : is ≠ [] := by
    rintro rfl
    exact absurd hs.front (by simp)
  have hf : (is ++ after).head?.any (fun i => !i.isBlank) = true := by
    rw [List.head?_append_of_ne_nil _ hn]
    exact hs.front
  have hr : is.reverse.head?.any (fun i => !i.isBlank) = true := by
    rw [List.head?_reverse]
    exact hs.back
  rw [trimBlanks, List.append_assoc, front hf hb, List.reverse_append,
    front hr (by simpa using ha), List.reverse_reverse]

theorem reads_spell {b : Bool} {s : String} {is : List Item} (h : Reads b s is) :
    String.ofList (spell (tokensOf is)) = s := by
  rw [lex_spell s _ (read_tokens s is (read_reads h)), String.ofList_toList]

theorem clause_text {b c : Bool} {sql t keyword : String} {is body scope : List Item}
    {rest : List (List Item)} (hr : Reads b sql is) (hs : scopesOf is = scope :: rest)
    (hc : ∃ js, clauseOf keyword scope = some js ∧ Padded body js) (ht : Reads c t body)
    (hb : Solid body) : clauseText keyword sql = some t := by
  obtain ⟨js, hj, hp⟩ := hc
  simp [clauseText, read_reads hr, hs, hj, trim_padded hp hb, reads_spell ht]

end Sql

open Sql

theorem resolved_clauseless : Clauseless resolvedColumnItems := by
  decide

theorem listing_tidy : ∀ e ∈ listingFrame.surroundings, Clauseless (phrase e) := by
  have hs : ∀ is ∈ listingFrame.surroundings.map phrase, Clauseless is := by
    rw [listing_phrases]
    simp only [List.forall_mem_cons]
    exact ⟨by decide, by decide, resolved_clauseless, by decide, by simp⟩
  exact List.forall_mem_map.mp hs

theorem insert_tidy : ∀ e ∈ insertFrame.surroundings, Clauseless (phrase e) := by
  decide

def restrictionText (p : Predicate) : String :=
  RowTest.inProject.render ++ " AND " ++ ("(" ++ Predicate.render p ++ ")")

def restrictionItems (p : Predicate) : List Item :=
  projectItems ++ spaced "AND" ++ [.group p.items]

section

variable {q : Select} {p : Predicate} (hp : p.Proper)

include hp

theorem restriction_reads : Reads false (restrictionText p) (restrictionItems p) := by
  have ha := reads_append (row_reads .inProject trivial) reads_and (.inr rfl)
  exact reads_open (reads_append ha (reads_group (predicate_reads p hp)) (.inl rfl)) false

theorem restricted_tidy (hs : ∀ e ∈ q.surroundings, Clauseless (phrase e))
    (hq : q.conditions = []) : Tidy (restricted q p) := by
  intro e he
  rcases List.mem_append.mp he with he | he
  · exact hs e he
  · rw [restricted_conditions, hq] at he
    simp only [List.nil_append, List.mem_cons, List.not_mem_nil, or_false] at he
    rcases he with rfl | rfl
    · rw [row_phrase .inProject trivial]
      decide
    · rw [parenthesized_phrase hp]
      intro i hi
      obtain rfl := List.mem_singleton.mp hi
      rfl

theorem restricted_clause (hq : q.conditions = []) :
    clauseIn "WHERE" [] (spaced "AND") (restricted q p).conditions =
      [("WHERE", restrictionItems p)] := by
  have hi : phrase RowTest.inProject.render = projectItems := row_phrase .inProject trivial
  rw [restricted_conditions, hq]
  simp [clauseIn, between, hi, parenthesized_phrase hp, restrictionItems]

theorem restricted_lookup (hq : q.conditions = []) :
    (restricted q p).clauses.lookup "WHERE" = some (restrictionItems p) := by
  rw [Select.clauses, restricted_clause hp hq]
  rfl

end

end CohortQuery
