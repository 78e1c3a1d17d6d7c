import CohortQuery.Proofs.Cohort.Statement

/-!
# Placeholders of a text

A placeholder is found again in the tokens of a text, with its name and its type. Those of a
statement are those of its parts, from left to right.
-/

set_option autoImplicit false

namespace CohortQuery

def ParamType.ofChars? (cs : List Char) : Option ParamType :=
  [text, word, integer, real, uuid, time].find? fun t => t.render.toList = cs

namespace Placeholder

def inner (p : Placeholder) : List Char :=
  (p.name ++ ":" ++ p.type.render).toList

def ofInner? (cs : List Char) : Option Placeholder :=
  match cs.dropWhile (· ≠ ':') with
  | [] => none
  | _ :: type =>
    (ParamType.ofChars? type).map fun t => ⟨String.ofList (cs.takeWhile (· ≠ ':')), t⟩

end Placeholder

theorem inner_read (p : Placeholder) (h : p.Proper) : Placeholder.ofInner? p.inner = some p := by
  have hn : ∀ c ∈ p.name.toList, (fun c : Char => decide (c ≠ ':')) c = true := by
    intro c hc
    have hw := h c hc
    simp only [ne_eq, decide_eq_true_eq]
    rintro rfl
    revert hw
    decide
  have hi : p.inner = p.name.toList ++ ':' :: p.type.render.toList := by
    simp [Placeholder.inner]
  have hd : p.inner.dropWhile (fun c => decide (c ≠ ':')) = ':' :: p.type.render.toList := by
    rw [hi, List.dropWhile_append_of_pos hn]
    rfl
  have ht : p.inner.takeWhile (fun c => decide (c ≠ ':')) = p.name.toList := by
    rw [hi, List.takeWhile_append_of_pos hn]
    simp
  have hp : ParamType.ofChars? p.type.render.toList = some p.type := by
    cases p.type <;> decide
  rw [Placeholder.ofInner?, hd]
  change (ParamType.ofChars? p.type.render.toList).map _ = _
  rw [hp, ht]
  simp

namespace Sql

def Token.hole? : Token → Option (List Char)
  | hole cs => some cs
  | word _ | literal _ | mark _ => none

def holes (is : List Item) : List (List Char) :=
  (tokensOf is).filterMap Token.hole?

/-- The placeholders of a text, if they can all be read. -/
def placeholders (sql : String) : Option (List Placeholder) := do
  ((← lex sql).filterMap Token.hole?).mapM Placeholder.ofInner?

theorem mapM_inner (ps : List Placeholder) (h : ∀ p ∈ ps, p.Proper) :
    (ps.map Placeholder.inner).mapM Placeholder.ofInner? = some ps := by
  induction ps with
  | nil => rfl
  | cons p ps ih =>
    rw [List.map_cons, List.mapM_cons, inner_read p (h p (by simp)),
      ih fun q hq => h q (by simp [hq])]
    rfl

theorem reads_placeholders {b : Bool} {s : String} {is : List Item} {ps : List Placeholder}
    (hr : Reads b s is) (hh : holes is = ps.map Placeholder.inner) (hp : ∀ p ∈ ps, p.Proper) :
    placeholders s = some ps := by
  have ht := read_tokens s is (read_reads hr)
  rw [placeholders, ht]
  change (holes is).mapM Placeholder.ofInner? = _
  rw [hh, mapM_inner ps hp]

theorem holes_append (is js : List Item) : holes (is ++ js) = holes is ++ holes js := by
  rw [holes, tokens_append, List.filterMap_append]
  rfl

theorem holes_cons (i : Item) (is : List Item) : holes (i :: is) = holes [i] ++ holes is :=
  holes_append [i] is

theorem holes_group (is : List Item) : holes [.group is] = holes is := by
  simp [holes, tokensOf, Item.tokens, Token.hole?, List.filterMap_cons]

theorem holes_hole (p : Placeholder) : holes [hole p] = [p.inner] := rfl

def Lacks (c : Char) (s : String) : Prop :=
  c ∉ s.toList

theorem lacks_chars {c : Char} (cs : List Char) (h : c ∉ cs) : Lacks c (String.ofList cs) := by
  rwa [Lacks, String.toList_ofList]

theorem Lacks.append {c : Char} {s t : String} (hs : Lacks c s) (ht : Lacks c t) :
    Lacks c (s ++ t) := by
  rw [Lacks, String.toList_append, List.mem_append]
  exact not_or.mpr ⟨hs, ht⟩

theorem Lacks.join {c : Char} {separator : String} (h : Lacks c separator) (es : List String)
    (he : ∀ e ∈ es, Lacks c e) : Lacks c (Text.join separator es) := by
  induction es with
  | nil => exact lacks_chars [] (by simp)
  | cons e es ih =>
    have ht := ih fun d hd => he d (by simp [hd])
    cases es with
    | nil => exact he e (by simp)
    | cons d ds => exact (he e (by simp)).append h |>.append ht

abbrev Braceless (s : String) : Prop :=
  Lacks '\x7b' s

theorem holes_free {s : String} (h : Braceless s) : holes (phrase s) = [] := by
  unfold phrase
  cases hr : read s with
  | none => rfl
  | some is =>
    have ht := lex_spell s _ (read_tokens s is hr)
    rw [Option.getD_some, holes, List.filterMap_eq_nil_iff]
    intro t hm
    cases t with
    | hole cs =>
      refine absurd ?_ h
      rw [← ht]
      exact List.mem_flatMap.mpr ⟨_, hm, List.mem_cons_self⟩
    | word cs => rfl
    | literal raw => rfl
    | mark c => rfl

theorem holes_between {separator : List Item} (hs : holes separator = [])
    (iss : List (List Item)) : holes (between separator iss) = iss.flatMap holes := by
  induction iss with
  | nil => rfl
  | cons is iss ih =>
    cases iss with
    | nil => simp [between]
    | cons js jss =>
      rw [between, holes_append, holes_append, hs, ih]
      simp

theorem holes_clause (head separator : List Item) (hh : holes head = [])
    (hs : holes separator = []) (es : List String) :
    holes (clauseItems head separator es) = es.flatMap fun e => holes (phrase e) := by
  unfold clauseItems
  cases es with
  | nil => rfl
  | cons e es =>
    rw [if_neg (by simp), holes_append, hh, holes_between hs, List.flatMap_map]
    rfl

theorem holes_option (head : List Item) (hh : holes head = []) (e : Option String) :
    holes (optionItems head e) = e.toList.flatMap fun e => holes (phrase e) := by
  cases e with
  | none => rfl
  | some e => simp [optionItems, holes_append, hh]

def Select.parts (q : Select) : List String :=
  q.columns ++ [q.source] ++ q.conditions ++ q.groups ++ q.groupConditions ++ q.order ++
    q.limit.toList ++ q.offset.toList

theorem select_holes (q : Select) : holes q.items = q.parts.flatMap fun e => holes (phrase e) := by
  have hd : holes (if q.isDistinct then [word "DISTINCT", blank] else []) = [] := by
    split <;> rfl
  have hl : holes (if q.columns.isEmpty then [mark '*']
      else between comma (q.columns.map phrase)) = q.columns.flatMap fun e => holes (phrase e) := by
    cases q.columns with
    | nil => rfl
    | cons e es =>
      rw [if_neg (by simp), holes_between rfl, List.flatMap_map]
  have hw : holes [blank] = [] := rfl
  have hf : holes (spaced "FROM") = [] := rfl
  rw [Select.items, holes_cons, Select.scope, Select.openingItems, Select.closingItems]
  simp only [holes_append, hd, hl, hw, hf,
    holes_clause (spaced "WHERE") (spaced "AND") rfl rfl,
    holes_clause groupWords comma rfl rfl,
    holes_clause (spaced "HAVING") (spaced "AND") rfl rfl,
    holes_clause orderWords comma rfl rfl,
    holes_option (spaced "LIMIT") rfl, holes_option (spaced "OFFSET") rfl,
    Select.parts, List.flatMap_append, List.flatMap_singleton]
  simp [holes, tokensOf, Item.tokens, Token.hole?, word]

def Moment.operands : Moment → List Placeholder
  | now => []
  | bound p => [p]

def Start.operands (s : Start) : List Placeholder :=
  s.moment.operands ++ s.daysBefore.toList

def PropertyTest.operands : PropertyTest → List Placeholder
  | text _ p | flag _ p | number _ p | ordered _ p | like _ p => [p]
  | isSet _ => []

def RowTest.operands : RowTest → List Placeholder
  | inProject => [Bindings.project]
  | equal _ p => [p]
  | notBefore s => s.operands
  | notAfter m => m.operands
  | property _ t => t.operands
  | notIdentify => []

def GroupTest.operands : GroupTest → List Placeholder
  | count _ p | periods _ p => [p]
  | firstNotBefore s => s.operands
  | firstNotAfter m => m.operands

def Fragment.operands : Fragment → List Placeholder
  | property _ t => t.operands
  | performed rows groups =>
    rows.flatMap RowTest.operands ++ groups.flatMap GroupTest.operands
  | member rows _ => rows.flatMap RowTest.operands

def Predicate.operands (p : Predicate) : List Placeholder :=
  p.leaves.flatMap Fragment.operands

theorem property_operands_proper {t : PropertyTest} (h : t.Proper) :
    ∀ p ∈ t.operands, p.Proper := by
  intro p hp
  cases t with
  | isSet => simp [PropertyTest.operands] at hp
  | text | flag | number | ordered | like =>
    obtain rfl := List.mem_singleton.mp hp
    exact h

theorem start_operands_proper {s : Start} (h : s.Proper) : ∀ p ∈ s.operands, p.Proper := by
  intro p hp
  rcases List.mem_append.mp hp with hp | hp
  · have hm := h.moment
    cases hs : s.moment with
    | now => simp [hs, Moment.operands] at hp
    | bound q =>
      rw [hs] at hp hm
      obtain rfl := List.mem_singleton.mp hp
      exact hm
  · exact h.days p (by simpa using hp)

theorem moment_operands_proper {m : Moment} (h : m.Proper) : ∀ p ∈ m.operands, p.Proper := by
  intro p hp
  cases m with
  | now => simp [Moment.operands] at hp
  | bound q =>
    obtain rfl := List.mem_singleton.mp hp
    exact h

theorem row_operands_proper {t : RowTest} (h : t.Proper) : ∀ p ∈ t.operands, p.Proper := by
  intro p hp
  cases t with
  | inProject =>
    obtain rfl := List.mem_singleton.mp hp
    exact (by decide : Bindings.project.Proper)
  | equal column q =>
    obtain rfl := List.mem_singleton.mp hp
    exact h
  | notBefore s => exact start_operands_proper h p hp
  | notAfter m => exact moment_operands_proper h p hp
  | property l t => exact property_operands_proper h p hp
  | notIdentify => simp [RowTest.operands] at hp

theorem group_operands_proper {t : GroupTest} (h : t.Proper) : ∀ p ∈ t.operands, p.Proper := by
  intro p hp
  cases t with
  | count op q | periods period q =>
    obtain rfl := List.mem_singleton.mp hp
    exact h
  | firstNotBefore s => exact start_operands_proper h p hp
  | firstNotAfter m => exact moment_operands_proper h p hp

theorem fragment_operands_proper {f : Fragment} (h : f.Proper) : ∀ p ∈ f.operands, p.Proper := by
  have rows {ts : List RowTest} (ht : ∀ t ∈ ts, t.Proper) :
      ∀ p ∈ ts.flatMap RowTest.operands, p.Proper := by
    intro p hp
    obtain ⟨t, hm, hp⟩ := List.mem_flatMap.mp hp
    exact row_operands_proper (ht t hm) p hp
  intro p hp
  cases f with
  | property l t => exact property_operands_proper h p hp
  | performed ts groups =>
    rcases List.mem_append.mp hp with hp | hp
    · exact rows h.1 p hp
    · obtain ⟨t, hm, hp⟩ := List.mem_flatMap.mp hp
      exact group_operands_proper (h.2 t hm) p hp
  | member ts negated => exact rows h p hp

theorem operands_proper {p : Predicate} (h : p.Proper) : ∀ q ∈ p.operands, q.Proper := by
  intro q hq
  obtain ⟨f, hf, hq⟩ := List.mem_flatMap.mp hq
  exact fragment_operands_proper (h f hf) q hq

theorem moment_holes (m : Moment) : holes m.items = m.operands.map Placeholder.inner := by
  cases m <;> rfl

theorem start_holes (s : Start) : holes s.items = s.operands.map Placeholder.inner := by
  obtain ⟨m, days⟩ := s
  cases days with
  | none => simp [Start.items, Start.operands, moment_holes]
  | some p =>
    have hl : holes [blank, mark '-', blank, word "INTERVAL", blank] = [] := rfl
    have hr : holes [blank, word "DAY"] = [] := rfl
    simp only [Start.items, Start.operands, holes_append, moment_holes, hl, hr, holes_hole]
    simp

theorem lookup_holes (l : Lookup) :
    holes l.textItems = [] ∧ holes l.rawItems = [] ∧ holes l.numberItems = [] := by
  cases hb : l.bag <;>
    simp [Lookup.textItems, Lookup.rawItems, Lookup.numberItems, Lookup.arguments, call, hb,
      holes, tokensOf, Item.tokens, Token.hole?, word, mark, blank, literal, comma]

theorem property_holes (l : Lookup) (t : PropertyTest) :
    holes (t.items l) = t.operands.map Placeholder.inner := by
  obtain ⟨ht, hr, hn⟩ := lookup_holes l
  have he (negated : Bool) : holes (equalityItems negated) = [] := by cases negated <;> rfl
  have hb : holes [blank] = [] := rfl
  have hc : holes comma = [] := rfl
  have h1 : holes [word "1"] = [] := rfl
  cases t with
  | text negated p =>
    rw [PropertyTest.items, holes_append, holes_append, ht, he]
    rfl
  | flag negated p =>
    rw [PropertyTest.items, holes_append, holes_append, hr, he]
    rfl
  | number negated p =>
    cases negated with
    | false =>
      rw [PropertyTest.items, holes_append, holes_append, hn, he]
      rfl
    | true =>
      rw [PropertyTest.items, call, holes_cons, holes_group]
      simp only [holes_append, hn, he, hc, h1, holes_hole]
      rfl
  | ordered order p =>
    have ho : holes (symbol order.symbol) = [] := by cases order <;> rfl
    simp only [PropertyTest.items, holes_append, hn, ho, hb]
    rfl
  | like negated p =>
    have hl : holes (if negated then [blank, word "NOT", blank, word "LIKE", blank]
        else spaced "LIKE") = [] := by
      cases negated <;> rfl
    rw [PropertyTest.items, holes_append, holes_append, ht, hl]
    rfl
  | isSet negated =>
    have hi : holes (spaced "IS") = [] := rfl
    have hl : holes [literal []] = [] := rfl
    have hk : holes (if negated then [word "NULL"] else [word "NOT", blank, word "NULL"]) = [] := by
      cases negated <;> rfl
    have hw : holes [word "nullIf"] = [] := rfl
    rw [PropertyTest.items, call, holes_append, holes_append, holes_cons, holes_group]
    simp [PropertyTest.operands, holes_append, hr, hc, hl, hi, hk, hw]

theorem row_holes (t : RowTest) : holes t.items = t.operands.map Placeholder.inner := by
  have he (negated : Bool) : holes (equalityItems negated) = [] := by cases negated <;> rfl
  have hw (w : String) : holes [word w] = [] := rfl
  have hl : holes notLess = [] := rfl
  have hm : holes notMore = [] := rfl
  cases t with
  | inProject => rfl
  | equal column p =>
    rw [RowTest.items, holes_cons, holes_append, hw, he]
    rfl
  | notBefore s =>
    rw [RowTest.items, holes_cons, holes_append, hw, hl, start_holes]
    rfl
  | notAfter m =>
    rw [RowTest.items, holes_cons, holes_append, hw, hm, moment_holes]
    rfl
  | property l t => exact property_holes l t
  | notIdentify => rfl

theorem group_test_holes (t : GroupTest) : holes t.items = t.operands.map Placeholder.inner := by
  have hb : holes [blank] = [] := rfl
  have hl : holes notLess = [] := rfl
  have hm : holes notMore = [] := rfl
  have hi : holes (call "min" [word "timestamp"]) = [] := rfl
  cases t with
  | count op p =>
    have hc : holes (call "count" []) = [] := rfl
    have ho : holes (symbol op.symbol) = [] := by cases op <;> rfl
    simp only [GroupTest.items, holes_append, hc, ho, hb]
    rfl
  | periods period p =>
    have hu : holes (call "uniqExact" (periodItems period)) = [] := by cases period <;> rfl
    rw [GroupTest.items, holes_append, holes_append, hu, hl]
    rfl
  | firstNotBefore s =>
    rw [GroupTest.items, holes_append, holes_append, hi, hl, start_holes]
    rfl
  | firstNotAfter m =>
    rw [GroupTest.items, holes_append, holes_append, hi, hm, moment_holes]
    rfl

theorem rows_holes (ts : List RowTest) (h : ∀ t ∈ ts, t.Proper) :
    ((ts.map RowTest.render).flatMap fun e => holes (phrase e)) =
      (ts.flatMap RowTest.operands).map Placeholder.inner := by
  rw [List.flatMap_map, List.map_flatMap]
  apply List.flatMap_congr
  intro t ht
  rw [row_phrase t (h t ht), row_holes]

theorem groups_holes (ts : List GroupTest) (h : ∀ t ∈ ts, t.Proper) :
    ((ts.map GroupTest.render).flatMap fun e => holes (phrase e)) =
      (ts.flatMap GroupTest.operands).map Placeholder.inner := by
  rw [List.flatMap_map, List.map_flatMap]
  apply List.flatMap_congr
  intro t ht
  rw [phrase_reads (group_test_reads t (h t ht)), group_test_holes]

theorem among_holes (q : Select) : holes (among q) = q.parts.flatMap fun e => holes (phrase e) := by
  have hd : holes [word "distinct_id", blank, word "IN", blank] = [] := rfl
  have hs : among q = [word "distinct_id", blank, word "IN", blank] ++ [.group q.items] := rfl
  rw [hs, holes_append, hd, holes_group, select_holes, List.nil_append]

theorem events_holes : holes (phrase eventsTable) = [] :=
  holes_free (lacks_chars _ (by decide))

theorem members_holes : holes (phrase membersTable) = [] :=
  holes_free (lacks_chars _ (by decide))

theorem distinct_id_holes : holes (phrase "distinct_id") = [] :=
  holes_free (lacks_chars _ (by decide))

theorem fragment_holes (f : Fragment) (h : f.Proper) :
    holes f.items = f.operands.map Placeholder.inner := by
  cases f with
  | property l t => exact property_holes l t
  | performed rows groups =>
    rw [Fragment.items, among_holes]
    simp only [Fragment.performedSelect, Select.of, Select.parts, List.flatMap_append,
      rows_holes rows h.1, groups_holes groups h.2]
    simp [events_holes, distinct_id_holes, Fragment.operands]
  | member rows negated =>
    have ha : holes (among (Fragment.memberSelect rows)) =
        (rows.flatMap RowTest.operands).map Placeholder.inner := by
      rw [among_holes]
      simp only [Fragment.memberSelect, Select.of, Select.parts, List.flatMap_append,
        rows_holes rows h]
      simp [members_holes, distinct_id_holes]
    cases negated with
    | false => exact ha
    | true =>
      have hn : holes [word "NOT", blank] = [] := rfl
      have hs : Fragment.items (.member rows true) =
          [word "NOT", blank] ++ [.group (among (Fragment.memberSelect rows))] := rfl
      rw [hs, holes_append, hn, holes_group, ha]
      rfl

theorem group_holes (j : Junction) (iss : List (List Item)) :
    holes (groupItems j iss) = iss.flatMap holes := by
  match iss with
  | [] => cases j <;> rfl
  | [is] => simp [groupItems]
  | is :: js :: rest =>
    have hs : holes (spaced (keyword j)) = [] := by cases j <;> rfl
    rw [groupItems, holes_group, holes_between hs]

theorem predicate_holes (p : Predicate) (h : p.Proper) :
    holes p.items = p.operands.map Placeholder.inner := by
  induction p using Tree.induct with
  | leaf f =>
    have hf := fragment_holes f (h f (by simp [Tree.leaves, Tree.fold]))
    simpa [Predicate.items, Predicate.operands, Tree.leaves, Tree.fold] using hf
  | group j ps ih =>
    rw [Predicate.items, Tree.fold_group, group_holes, List.flatMap_map, Predicate.operands,
      Tree.leaves_group, List.flatMap_assoc, List.map_flatMap]
    exact List.flatMap_congr fun p hp => ih p hp (proper_group h p hp)

end Sql

end CohortQuery
