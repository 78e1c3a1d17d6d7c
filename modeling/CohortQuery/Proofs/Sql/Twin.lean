import CohortQuery.Proofs.Sql.Key
import CohortQuery.Proofs.Sql.Predicate

/-!
# Predicates with other keys

Predicates that differ in the names of properties only have twin texts.
-/

set_option autoImplicit false

namespace CohortQuery.Sql

/-- The keys in the text of a test. A number is looked up in two ways. -/
def PropertyTest.keys (l : Lookup) : PropertyTest → List String
  | number _ _ | ordered _ _ => [l.key.text, l.key.text]
  | text _ _ | flag _ _ | like _ _ | isSet _ => [l.key.text]

def RowTest.keys : RowTest → List String
  | property l t => t.keys l
  | inProject | equal _ _ | notBefore _ | notAfter _ | notIdentify => []

def Fragment.keys : Fragment → List String
  | property l t => t.keys l
  | performed rows _ | member rows _ => rows.flatMap RowTest.keys

def Predicate.keys (p : Predicate) : List String :=
  p.leaves.flatMap Fragment.keys

theorem row_keys (t : RowTest) : ∀ k ∈ t.keys, ∃ name : PropertyName, k = name.text := by
  intro k hk
  cases t with
  | property l t =>
    refine ⟨l.key, ?_⟩
    cases t <;> simpa [RowTest.keys, PropertyTest.keys] using hk
  | _ => simp [RowTest.keys] at hk

theorem predicate_keys (p : Predicate) : ∀ k ∈ p.keys, ∃ name : PropertyName, k = name.text := by
  intro k hk
  obtain ⟨f, _, hk⟩ := List.mem_flatMap.mp hk
  cases f with
  | property l t => exact row_keys (.property l t) k hk
  | performed rows groups =>
    obtain ⟨t, _, hk⟩ := List.mem_flatMap.mp hk
    exact row_keys t k hk
  | member rows negated =>
    obtain ⟨t, _, hk⟩ := List.mem_flatMap.mp hk
    exact row_keys t k hk

section

variable (R : String → String → Prop)

structure Lookup.Like (l m : Lookup) : Prop where
  bag : l.bag = m.bag
  key : R l.key.text m.key.text

inductive RowTest.Like : RowTest → RowTest → Prop where
  | refl (t : RowTest) : Like t t
  | property {l m : Lookup} (t : PropertyTest) (h : l.Like R m) :
      Like (.property l t) (.property m t)

inductive Fragment.Like : Fragment → Fragment → Prop where
  | property {l m : Lookup} (t : PropertyTest) (h : l.Like R m) :
      Like (.property l t) (.property m t)
  | performed {rows others : List RowTest} (groups : List GroupTest)
      (h : List.Forall₂ (RowTest.Like R) rows others) :
      Like (.performed rows groups) (.performed others groups)
  | member (rows : List RowTest) (negated : Bool) :
      Like (.member rows negated) (.member rows negated)

end

theorem lookup_like_eq {l m : Lookup} (h : l.Like Eq m) : l = m := by
  obtain ⟨bag, ⟨text, safe⟩⟩ := l
  obtain ⟨other, ⟨name, proper⟩⟩ := m
  obtain rfl : bag = other := h.bag
  obtain rfl : text = name := h.key
  rfl

theorem row_like_eq {t u : RowTest} (h : t.Like Eq u) : t = u := by
  cases h with
  | refl => rfl
  | property t h => rw [lookup_like_eq h]

theorem fragment_like_eq {f g : Fragment} (h : f.Like Eq g) : f = g := by
  cases h with
  | property t h => rw [lookup_like_eq h]
  | performed groups h =>
    have hr : List.Forall₂ Eq _ _ := h.imp fun t u hl => row_like_eq hl
    rw [List.forall₂_eq_eq_eq] at hr
    rw [hr]
  | member => rfl

theorem fragment_like_refl (f : Fragment) : f.Like Eq f := by
  cases f with
  | property l t => exact .property t ⟨rfl, rfl⟩
  | performed rows groups => exact .performed groups (List.forall₂_same.mpr fun t _ => .refl t)
  | member rows negated => exact .member rows negated

theorem keyless_hole (p : Placeholder) : Keyless [hole p] := by
  intro t ht
  obtain rfl : t = _ := by simpa [hole, tokensOf, Item.tokens] using ht
  rfl

theorem twins_call {name : String} {is js : List Item} {ks ls : List String}
    (hn : Keyless [word name]) (h : Twins is js ks ls) :
    Twins (call name is) (call name js) ks ls :=
  twins_behind (twins_group h) hn

theorem reader_twins (name : String) (hn : (Token.word name.toList).takesKey = true)
    (l m : Lookup) (hb : l.bag = m.bag) (is : List Item)
    (hk : raws (spotsFrom (some 1) false is) = []) :
    Twins (call name (l.arguments ++ is)) (call name (m.arguments ++ is)) [l.key.text]
      [m.key.text] := by
  let s (l : Lookup) : List Spot :=
    [.other (.word l.bag.column.toList), .other (.mark ','), .other (.mark ' '),
      .key l.key.text.toList] ++ spotsFrom (some 1) false is
  have hs (l : Lookup) : spotsFrom (some 0) false (l.arguments ++ is) = s l := by
    simp [s, Lookup.arguments, spotsFrom, Item.spots, word, mark, blank, literal, Item.isComma,
      Item.isBlank, Item.takesKey, Token.takesKey]
  have hl (l : Lookup) := located_reader (l.arguments ++ is) hn
  have hr (l : Lookup) : raws (.other (.word name.toList) :: .other (.mark '(') ::
      (s l ++ [.other (.mark ')')])) = [l.key.text.toList] := by
    simp only [raws] at hk
    simp [s, raws, Spot.raw?, List.filterMap_cons, hk]
  simp only [hs] at hl
  refine .intro (hl l) (hl m) ?_ (hr l) (hr m)
  simp [s, hb, Spot.hidden]

theorem text_twins (l m : Lookup) (h : l.bag = m.bag) :
    Twins l.textItems m.textItems [l.key.text] [m.key.text] := by
  have ht := reader_twins "JSONExtractString" rfl l m h [] rfl
  rwa [List.append_nil, List.append_nil] at ht

theorem raw_twins (l m : Lookup) (h : l.bag = m.bag) :
    Twins l.rawItems m.rawItems [l.key.text] [m.key.text] := by
  have ht := reader_twins "JSONExtractRaw" rfl l m h [] rfl
  rwa [List.append_nil, List.append_nil] at ht

theorem number_twins (l m : Lookup) (h : l.bag = m.bag) :
    Twins l.numberItems m.numberItems [l.key.text, l.key.text] [m.key.text, m.key.text] := by
  have hn := reader_twins "JSONExtract" rfl l m h
    (comma ++ [literal "Nullable(Float64)".toList]) rfl
  have ht : Twins (call "toFloat64OrNull" l.textItems) (call "toFloat64OrNull" m.textItems) _ _ :=
    twins_call (by decide) (text_twins l m h)
  have ha := twins_append (twins_before hn (by decide : Keyless comma)) ht
  rw [← List.append_assoc, ← List.append_assoc] at ha
  exact twins_call (by decide) ha

theorem property_twins (l m : Lookup) (h : l.bag = m.bag) (t : PropertyTest) :
    Twins (t.items l) (t.items m) (t.keys l) (t.keys m) := by
  have equality (negated : Bool) (p : Placeholder) :
      Keyless (equalityItems negated ++ [hole p]) := by
    apply keyless_append _ (keyless_hole p)
    cases negated <;> decide
  cases t with
  | text negated p =>
    have ht := twins_before (text_twins l m h) (equality negated p)
    rwa [← List.append_assoc, ← List.append_assoc] at ht
  | flag negated p =>
    have ht := twins_before (raw_twins l m h) (equality negated p)
    rwa [← List.append_assoc, ← List.append_assoc] at ht
  | number negated p =>
    have ht := twins_before (number_twins l m h) (equality negated p)
    rw [← List.append_assoc, ← List.append_assoc] at ht
    cases negated with
    | false => exact ht
    | true =>
      have hc := twins_before (twins_before ht (by decide : Keyless comma))
        (by decide : Keyless [word "1"])
      exact twins_call (by decide) hc
  | ordered order p =>
    have hs : Keyless ([blank] ++ symbol order.symbol ++ [blank]) := by cases order <;> decide
    have ht := twins_before (number_twins l m h) (keyless_append hs (keyless_hole p))
    change Twins _ _ [l.key.text, l.key.text] [m.key.text, m.key.text]
    simpa [PropertyTest.items] using ht
  | like negated p =>
    have hk : Keyless (if negated then [blank, word "NOT", blank, word "LIKE", blank]
        else spaced "LIKE") := by
      cases negated <;> decide
    have ht := twins_before (text_twins l m h) (keyless_append hk (keyless_hole p))
    rwa [← List.append_assoc, ← List.append_assoc] at ht
  | isSet negated =>
    have hn : Keyless (spaced "IS" ++
        if negated then [word "NULL"] else [word "NOT", blank, word "NULL"]) := by
      cases negated <;> decide
    have he := twins_before (raw_twins l m h) (by decide : Keyless (comma ++ [literal []]))
    rw [← List.append_assoc, ← List.append_assoc] at he
    have hc : Twins (call "nullIf" _) (call "nullIf" _) _ _ := twins_call (by decide) he
    have ht := twins_before hc hn
    rwa [← List.append_assoc, ← List.append_assoc] at ht

theorem start_keyless (s : Start) : Keyless s.items := by
  obtain ⟨m, days⟩ := s
  have hm : Keyless m.items := by
    cases m with
    | now => decide
    | bound p => exact keyless_hole p
  apply keyless_append hm
  cases days with
  | none => exact (by decide : Keyless [])
  | some p =>
    have hp : Keyless ([blank, mark '-', blank, word "INTERVAL", blank] ++ [hole p]) :=
      keyless_append (by decide) (keyless_hole p)
    exact keyless_append hp (by decide)

theorem moment_keyless (m : Moment) : Keyless m.items := by
  have h := start_keyless ⟨m, none⟩
  rwa [Start.items, List.append_nil] at h

theorem row_twins {R : String → String → Prop} {t u : RowTest} (h : t.Like R u) :
    Twins t.items u.items t.keys u.keys := by
  cases h with
  | property t h => exact property_twins _ _ h.bag t
  | refl =>
    cases t with
    | property l t => exact property_twins l l rfl t
    | inProject =>
      have hk : Keyless (word "project_id" :: equalityItems false) := by decide
      exact twins_keyless (keyless_append hk (keyless_hole Bindings.project))
    | equal column p =>
      have hk : Keyless (word column.render :: equalityItems false) := by
        cases column <;> decide
      exact twins_keyless (keyless_append hk (keyless_hole p))
    | notBefore s =>
      have hk : Keyless (word "timestamp" :: notLess) := by decide
      exact twins_keyless (keyless_append hk (start_keyless s))
    | notAfter m =>
      have hk : Keyless (word "timestamp" :: notMore) := by decide
      exact twins_keyless (keyless_append hk (moment_keyless m))
    | notIdentify => exact twins_keyless (by decide : Keyless RowTest.notIdentify.items)

theorem group_test_keyless (t : GroupTest) : Keyless t.items := by
  cases t with
  | count op p =>
    have hk : Keyless (call "count" [] ++ [blank] ++ symbol op.symbol ++ [blank]) := by
      cases op <;> decide
    exact keyless_append hk (keyless_hole p)
  | periods period p =>
    have hk : Keyless (call "uniqExact" (periodItems period) ++ notLess) := by
      cases period <;> decide
    exact keyless_append hk (keyless_hole p)
  | firstNotBefore s =>
    have hk : Keyless (call "min" [word "timestamp"] ++ notLess) := by decide
    exact keyless_append hk (start_keyless s)
  | firstNotAfter m =>
    have hk : Keyless (call "min" [word "timestamp"] ++ notMore) := by decide
    exact keyless_append hk (moment_keyless m)

section

variable (q : Select) (h : ∀ e ∈ q.surroundings, Keyless (phrase e))

include h

theorem keyless_opening : Keyless q.openingItems := by
  have hw : Keyless openingWords := by decide
  rw [keyless_each] at hw ⊢
  exact all_opening q (fun e he => (keyless_each _).mp (h e he)) hw

theorem keyless_closing : Keyless q.closingItems := by
  have hw : Keyless closingWords := by decide
  rw [keyless_each] at hw ⊢
  exact all_closing q (fun e he => (keyless_each _).mp (h e he)) hw

end

theorem select_twins {q r : Select} {ks ls : List String}
    (hs : ∀ e ∈ q.surroundings, Keyless (phrase e)) (ho : q.openingItems = r.openingItems)
    (hc : q.closingItems = r.closingItems)
    (h : Twins (clauseItems (spaced "WHERE") (spaced "AND") q.conditions)
      (clauseItems (spaced "WHERE") (spaced "AND") r.conditions) ks ls) :
    Twins q.items r.items ks ls := by
  have hk : Keyless (word "SELECT" :: q.openingItems) :=
    keyless_append (by decide : Keyless [word "SELECT"]) (keyless_opening q hs)
  have ht := twins_before (twins_behind h hk) (keyless_closing q hs)
  rw [Select.items, Select.items, Select.scope, Select.scope, ← ho, ← hc]
  exact ht

theorem rows_twins {R : String → String → Prop} {rows others : List RowTest}
    (hp : ∀ t ∈ rows, t.Proper) (ho : ∀ t ∈ others, t.Proper)
    (h : List.Forall₂ (RowTest.Like R) rows others) :
    Twins (clauseItems (spaced "WHERE") (spaced "AND") (rows.map RowTest.render))
      (clauseItems (spaced "WHERE") (spaced "AND") (others.map RowTest.render))
      (rows.flatMap RowTest.keys) (others.flatMap RowTest.keys) := by
  have hb := twins_between (by decide : Keyless (spaced "AND"))
    (h.imp fun t u hl => row_twins hl)
  rw [← rows_phrases rows hp, ← rows_phrases others ho] at hb
  cases h with
  | nil => exact twins_keyless (by decide : Keyless [])
  | cons => exact twins_behind hb (by decide)

theorem keyless_constants : Keyless (phrase eventsTable) ∧ Keyless (phrase membersTable) ∧
    Keyless (phrase "distinct_id") :=
  ⟨phrase_has (by decide), phrase_has (by decide), phrase_has (by decide)⟩

theorem select_keyless {f : Fragment} {q : Select} (h : f.Proper) (hq : f.select? = some q) :
    ∀ e ∈ q.surroundings, Keyless (phrase e) := by
  obtain ⟨he, hm, hd⟩ := keyless_constants
  intro e hs
  cases f with
  | property l t => cases hq
  | performed rows groups =>
    obtain rfl := Option.some.inj hq
    simp only [Select.surroundings, Fragment.performedSelect, Select.of, List.mem_append,
      List.mem_cons, List.not_mem_nil, or_false, Option.toList_none] at hs
    rcases hs with rfl | (rfl | rfl) | hs
    · exact he
    · exact hd
    · exact hd
    · obtain ⟨t, ht, rfl⟩ := List.mem_map.mp hs
      rw [phrase_reads (group_test_reads t (h.2 t ht))]
      exact group_test_keyless t
  | member rows negated =>
    obtain rfl := Option.some.inj hq
    simp only [Select.surroundings, Fragment.memberSelect, Select.of, List.mem_append,
      List.mem_cons, List.not_mem_nil, or_false, Option.toList_none] at hs
    rcases hs with rfl | rfl
    · exact hm
    · exact hd

theorem among_twins {q r : Select} {ks ls : List String} (h : Twins q.items r.items ks ls) :
    Twins (among q) (among r) ks ls :=
  twins_behind (twins_group h) (by decide : Keyless [word "distinct_id", blank, word "IN", blank])

theorem fragment_twins {R : String → String → Prop} {f g : Fragment} (hf : f.Proper)
    (hg : g.Proper) (h : f.Like R g) : Twins f.items g.items f.keys g.keys := by
  cases h with
  | property t h => exact property_twins _ _ h.bag t
  | @performed rows others groups h =>
    have hs : Twins (Fragment.performedSelect rows groups).items
        (Fragment.performedSelect others groups).items _ _ :=
      select_twins (select_keyless hf rfl) rfl rfl (rows_twins hf.1 hg.1 h)
    exact among_twins hs
  | member rows negated =>
    have hl : List.Forall₂ (RowTest.Like R) rows rows :=
      List.forall₂_same.mpr fun t _ => .refl t
    have hs : Twins (Fragment.memberSelect rows).items (Fragment.memberSelect rows).items _ _ :=
      select_twins (select_keyless hf rfl) rfl rfl (rows_twins hf hg hl)
    cases negated with
    | false => exact among_twins hs
    | true =>
      exact twins_behind (twins_group (among_twins hs)) (by decide : Keyless [word "NOT", blank])

theorem group_twins {α β : Type} {f : α → List Item} {g : β → List Item} {k : α → List String}
    {l : β → List String} {as : List α} {bs : List β} (j : Junction)
    (h : List.Forall₂ (fun a b => Twins (f a) (g b) (k a) (l b)) as bs) :
    Twins (groupItems j (as.map f)) (groupItems j (bs.map g)) (as.flatMap k) (bs.flatMap l) := by
  have hs : Keyless (spaced (keyword j)) := by cases j <;> decide
  have hb := twins_between hs h
  match h with
  | .nil =>
    have he : Keyless (emptyItems j) := by cases j <;> decide
    exact twins_keyless he
  | .cons h .nil => simpa [groupItems] using h
  | .cons _ (.cons _ _) => exact twins_group hb

theorem predicate_twins {R : String → String → Prop} {p q : Predicate} (hp : p.Proper)
    (hq : q.Proper) (h : Tree.Rel (Fragment.Like R) p q) :
    Twins p.items q.items p.keys q.keys := by
  induction p using Tree.induct generalizing q with
  | leaf f =>
    cases q with
    | leaf g =>
      have ht := fragment_twins (hp f (by simp [Tree.leaves, Tree.fold]))
        (hq g (by simp [Tree.leaves, Tree.fold])) h
      simpa [Predicate.items, Predicate.keys, Tree.leaves, Tree.fold] using ht
    | group k qs => exact h.elim
  | group j ps ih =>
    cases q with
    | leaf g => exact h.elim
    | group k qs =>
      obtain ⟨rfl, hr⟩ := h
      rw [Tree.rel_all] at hr
      have hm : List.Forall₂ (fun p q => Twins (Predicate.items p) (Predicate.items q)
          (Predicate.keys p) (Predicate.keys q)) ps qs := by
        refine List.forall₂_iff_zip.mpr ⟨hr.length_eq, ?_⟩
        intro p q hz
        have hpm := (List.of_mem_zip hz).1
        have hqm := (List.of_mem_zip hz).2
        exact ih p hpm (proper_group hp p hpm) (proper_group hq q hqm)
          ((List.forall₂_iff_zip.mp hr).2 hz)
      have hg := group_twins j hm
      rw [Predicate.items, Predicate.items, Tree.fold_group, Tree.fold_group, Predicate.keys,
        Predicate.keys, Tree.leaves_group, Tree.leaves_group, List.flatMap_assoc,
        List.flatMap_assoc]
      exact hg

end CohortQuery.Sql
