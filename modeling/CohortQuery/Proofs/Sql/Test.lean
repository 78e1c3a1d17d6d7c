import CohortQuery.Proofs.Sql.Scope
import CohortQuery.Sql.Predicate

/-!
# Tests as items

What the tests on rows and groups of rows are when their text is read. Names of
placeholders are words and names of properties are safe, so neither ends early.
-/

set_option autoImplicit false

namespace CohortQuery

def Placeholder.Proper (p : Placeholder) : Prop :=
  Sql.Wordlike p.name

instance (p : Placeholder) : Decidable p.Proper :=
  inferInstanceAs (Decidable (Sql.Wordlike p.name))

namespace Sql

def hole (p : Placeholder) : Item :=
  .token (.hole (p.name ++ ":" ++ p.type.render).toList)

def literal (cs : List Char) : Item := .token (.literal cs)

def call (name : String) (arguments : List Item) : List Item :=
  [word name, .group arguments]

def symbol (s : String) : List Item :=
  s.toList.map mark

theorem reads_word (w : String) (hn : w.toList ≠ [])
    (h : Wordlike w) : Reads false w [word w] := by
  refine ⟨?_, fun _ _ _ => rfl⟩
  intro done rest hr
  have ha : Apart rest := by simpa using hr
  obtain ⟨c, cs, hw⟩ := List.exists_cons_of_ne_nil hn
  have hc : isWordChar c = true := h c (by simp [hw])
  have hcs : ∀ d ∈ cs, isWordChar d = true := fun d hd => h d (by simp [hw, hd])
  have hstart : Lexer.run ⟨done, .between⟩ (w.toList ++ rest) =
      Lexer.run ⟨done, .word [c]⟩ (cs ++ rest) := by
    simp [hw, Lexer.run, Lexer.feed, Lexer.begin, hc]
  rw [hstart, run_word done [c] cs rest hcs, List.singleton_append, ← hw,
    finish_word done w.toList rest ha]
  rfl

theorem reads_placeholder (p : Placeholder) (h : p.Proper) : Reads true p.render [hole p] := by
  have hname : ∀ c ∈ (p.name ++ ":" ++ p.type.render).toList, c ≠ '\x7d' := by
    intro c hc
    simp only [String.toList_append, List.mem_append] at hc
    rcases hc with (hc | hc) | hc
    · rintro rfl
      exact absurd (h _ hc) (by decide)
    · rintro rfl
      exact absurd hc (by decide)
    · rintro rfl
      revert hc
      cases p.type <;> decide
  refine ⟨?_, fun _ _ _ => rfl⟩
  have hs := spells_hole _ hname
  have ht : p.render.toList =
      '\x7b' :: ((p.name ++ ":" ++ p.type.render).toList ++ ['\x7d']) := by
    simp [Placeholder.render]
  rw [ht]
  exact hs

theorem reads_literal (s : String) (h : Unescaped s.toList) :
    Reads true ("'" ++ s ++ "'") [literal s.toList] := by
  refine ⟨?_, fun _ _ _ => rfl⟩
  have ht : ("'" ++ s ++ "'").toList = '\'' :: (s.toList ++ ['\'']) := by simp
  rw [ht]
  exact spells_literal _ h

theorem reads_call {b : Bool} {name s : String} {is : List Item} (hn : name.toList ≠ [])
    (hw : Wordlike name) (h : Reads b s is) :
    Reads true (name ++ ("(" ++ s ++ ")")) (call name is) :=
  reads_append (reads_word name hn hw) (reads_group h) (.inr (by simp [StartsApart, isWordChar]))

theorem scopes_plain {is : List Item} (h : Plain is) : scopesOf is = [] := by
  rw [scopes_beside is (fun i hi => (inert_plain h i hi).1), scopes_inert is (inert_plain h)]

theorem plain_call {name : String} {is : List Item} (hn : (word name).isReserved = false)
    (h : Plain is) : Plain (call name is) := by
  intro i hi
  simp only [call, List.mem_cons, List.not_mem_nil, or_false] at hi
  rcases hi with rfl | rfl
  · exact ⟨hn, rfl⟩
  · exact ⟨rfl, scopes_plain h⟩

theorem plain_hole (p : Placeholder) : Plain [hole p] := by
  intro i hi
  obtain rfl : i = hole p := by simpa using hi
  exact ⟨rfl, rfl⟩

theorem plain_literal (cs : List Char) : Plain [literal cs] := by
  intro i hi
  obtain rfl : i = literal cs := by simpa using hi
  exact ⟨rfl, rfl⟩

def bare (is : List Item) : List Item :=
  is.filter fun i => !i.isBlank

theorem bare_pieces (is : List Item) :
    withoutBlanks (pieces is) = (bare is).map fun i => ⟨i, i.inner⟩ := by
  rw [withoutBlanks, pieces_map, List.filter_map]
  rfl

theorem operand_test {t : Token} {is : List Item} (hb : (Item.token t).isBlank = false)
    (hn : (Item.token t).isWord "NOT" = false) (hq : Quiet (.token t :: is))
    (hc : constant? (.token t :: bare is) = none) :
    Operand (.token t :: is) (.test (.token t :: bare is)) := by
  have hbare : bare (.token t :: is) = .token t :: bare is := by simp [bare, hb]
  refine ⟨fun i hi => (reserved_not (hq i hi)).2.2.2.1,
    fun i hi => (reserved_not (hq i hi)).2.2.2.2, ?_⟩
  have hmap : ((bare is).map fun i => (⟨i, i.inner⟩ : Piece)).map Piece.item = bare is := by
    simp [Function.comp_def]
  rw [bare_pieces, hbare, List.map_cons, operand, if_neg (by simp [hn]), List.map_cons, hmap,
    testOf, hc]
  intro items hi
  simp at hi

theorem safe_chars (n : PropertyName) :
    ∀ c ∈ n.text.toList, PropertyName.continuesName c = true := by
  have h := n.safe
  intro c hc
  cases hn : n.text.toList with
  | nil => simp [hn] at hc
  | cons d ds =>
    rw [hn] at hc h
    simp only [PropertyName.isSafe, Bool.and_eq_true, List.all_eq_true] at h
    rcases List.mem_cons.mp hc with rfl | hc
    · simp [PropertyName.continuesName, h.1.1]
    · exact h.1.2 c hc

theorem safe_literal (n : PropertyName) : Unescaped n.text.toList := by
  intro c hc
  have h := safe_chars n c hc
  constructor <;> rintro rfl <;> exact absurd h (by decide)

namespace Lookup

def arguments (l : Lookup) : List Item :=
  [word l.bag.column, mark ',', blank] ++ [literal l.key.text.toList]

def textItems (l : Lookup) : List Item :=
  call "JSONExtractString" l.arguments

def rawItems (l : Lookup) : List Item :=
  call "JSONExtractRaw" l.arguments

def numberItems (l : Lookup) : List Item :=
  call "coalesce" (call "JSONExtract" (l.arguments ++ comma ++
    [literal "Nullable(Float64)".toList]) ++ comma ++ call "toFloat64OrNull" l.textItems)

end Lookup

theorem arguments_reads (l : Lookup) :
    Reads true (l.bag.column ++ ", " ++ ("'" ++ l.key.text ++ "'")) l.arguments := by
  have hb : Reads false l.bag.column [word l.bag.column] := by
    cases l.bag <;> exact reads_word _ (by decide) (by decide)
  have hc := reads_append hb reads_comma (.inr rfl)
  exact reads_append hc (reads_literal _ (safe_literal l.key)) (.inl rfl)

theorem arguments_plain (l : Lookup) : Plain l.arguments := by
  have hb : Plain [word l.bag.column, mark ',', blank] := by
    cases l.bag <;> decide
  exact plain_append hb (plain_literal _)

theorem quote_opens : ", '" = ", " ++ "'" :=
  joined_chars rfl

theorem quote_closes : "')" = "'" ++ ")" :=
  joined_chars rfl

theorem text_reads (l : Lookup) : Reads true l.text l.textItems := by
  have hn : "JSONExtractString(" = "JSONExtractString" ++ "(" := joined_chars rfl
  have hs : l.text = "JSONExtractString" ++
      ("(" ++ (l.bag.column ++ ", " ++ ("'" ++ l.key.text ++ "'")) ++ ")") := by
    unfold Lookup.text
    rw [hn, quote_opens, quote_closes]
    simp only [String.append_assoc]
  rw [hs]
  exact reads_call (by decide) (by decide) (arguments_reads l)

theorem text_plain (l : Lookup) : Plain l.textItems :=
  plain_call rfl (arguments_plain l)

theorem raw_reads (l : Lookup) : Reads true l.raw l.rawItems := by
  have hn : "JSONExtractRaw(" = "JSONExtractRaw" ++ "(" := joined_chars rfl
  have hs : l.raw = "JSONExtractRaw" ++
      ("(" ++ (l.bag.column ++ ", " ++ ("'" ++ l.key.text ++ "'")) ++ ")") := by
    unfold Lookup.raw
    rw [hn, quote_opens, quote_closes]
    simp only [String.append_assoc]
  rw [hs]
  exact reads_call (by decide) (by decide) (arguments_reads l)

theorem raw_plain (l : Lookup) : Plain l.rawItems :=
  plain_call rfl (arguments_plain l)

theorem number_reads (l : Lookup) : Reads true l.number l.numberItems := by
  have ho : "coalesce(JSONExtract(" = "coalesce" ++ "(" ++ "JSONExtract" ++ "(" := by
    decide
  have hm : "', 'Nullable(Float64)'), toFloat64OrNull(" =
      "'" ++ ", " ++ "'" ++ "Nullable(Float64)" ++ "'" ++ ")" ++ ", " ++ "toFloat64OrNull" ++
        "(" := by
    decide
  have hc : "))" = ")" ++ ")" := joined_chars rfl
  have hs : l.number = "coalesce" ++ ("(" ++ ("JSONExtract" ++
      ("(" ++ (l.bag.column ++ ", " ++ ("'" ++ l.key.text ++ "'") ++ ", " ++
        ("'" ++ "Nullable(Float64)" ++ "'")) ++ ")") ++ ", " ++
        ("toFloat64OrNull" ++ ("(" ++ l.text ++ ")"))) ++ ")") := by
    unfold Lookup.number
    rw [ho, quote_opens, hm, hc]
    simp only [String.append_assoc]
  have ha := reads_append (arguments_reads l) reads_comma (.inl rfl)
  have hn := reads_append ha (reads_literal "Nullable(Float64)" (by decide)) (.inl rfl)
  have hj : Reads true ("JSONExtract" ++ _) (call "JSONExtract" _) :=
    reads_call (by decide) (by decide) hn
  have ht : Reads true ("toFloat64OrNull" ++ _) (call "toFloat64OrNull" _) :=
    reads_call (by decide) (by decide) (text_reads l)
  rw [hs]
  exact reads_call (by decide) (by decide)
    (reads_append (reads_append hj reads_comma (.inl rfl)) ht (.inl rfl))

theorem number_plain (l : Lookup) : Plain l.numberItems := by
  have ha := plain_append (arguments_plain l) (by decide : Plain comma)
  have hn := plain_append ha (plain_literal "Nullable(Float64)".toList)
  have hj : Plain (call "JSONExtract" _) := plain_call rfl hn
  have ht : Plain (call "toFloat64OrNull" _) := plain_call rfl (text_plain l)
  exact plain_call rfl (plain_append (plain_append hj (by decide)) ht)

def PropertyTest.Proper : PropertyTest → Prop
  | text _ p | flag _ p | number _ p | ordered _ p | like _ p => p.Proper
  | isSet _ => True

def equalityItems (negated : Bool) : List Item :=
  blank :: (symbol (if negated then "!=" else "=") ++ [blank])

def PropertyTest.items (l : Lookup) : PropertyTest → List Item
  | text negated p => l.textItems ++ equalityItems negated ++ [hole p]
  | flag negated p => l.rawItems ++ equalityItems negated ++ [hole p]
  | number false p => l.numberItems ++ equalityItems false ++ [hole p]
  | number true p =>
    call "ifNull" (l.numberItems ++ equalityItems true ++ [hole p] ++ comma ++ [word "1"])
  | ordered order p => l.numberItems ++ [blank] ++ symbol order.symbol ++ [blank] ++ [hole p]
  | like negated p =>
    l.textItems ++ (if negated then [blank, word "NOT", blank, word "LIKE", blank]
      else spaced "LIKE") ++ [hole p]
  | isSet negated =>
    call "nullIf" (l.rawItems ++ comma ++ [literal []]) ++ spaced "IS" ++
      (if negated then [word "NULL"] else [word "NOT", blank, word "NULL"])

theorem equality_reads (negated : Bool) :
    Reads true (equality negated) (equalityItems negated) := by
  cases negated <;> exact reads_constant (by decide) fun _ _ _ => rfl

theorem equality_plain (negated : Bool) : Plain (equalityItems negated) := by
  cases negated <;> decide

theorem unequal_reads (l : Lookup) (p : Placeholder) (h : p.Proper) :
    Reads true (PropertyTest.render l (.number true p))
      (PropertyTest.items l (.number true p)) := by
  have he := reads_append (number_reads l) (equality_reads true) (.inl rfl)
  have hp := reads_append he (reads_placeholder p h) (.inl rfl)
  have ho := reads_append (reads_append hp reads_comma (.inl rfl))
    (reads_word "1" (by decide) (by decide)) (.inl rfl)
  have hn : "ifNull(" = "ifNull" ++ "(" := joined_chars rfl
  have hc : ", 1)" = ", " ++ "1" ++ ")" := by decide
  have hs : PropertyTest.render l (.number true p) = "ifNull" ++
      ("(" ++ (l.number ++ equality true ++ p.render ++ ", " ++ "1") ++ ")") := by
    change "ifNull(" ++ l.number ++ " != " ++ p.render ++ ", 1)" = _
    rw [hn, hc]
    simp only [String.append_assoc, equality, if_true]
  rw [hs]
  exact reads_call (by decide) (by decide) ho

theorem presence_reads (l : Lookup) (negated : Bool) :
    Reads false (PropertyTest.render l (.isSet negated))
      (PropertyTest.items l (.isSet negated)) := by
  have hn : Reads false (if negated then "NULL" else "NOT NULL")
      (if negated then [word "NULL"] else [word "NOT", blank, word "NULL"]) := by
    have hk : Reads true "NOT " [word "NOT", blank] :=
      reads_constant (by decide) fun _ _ _ => rfl
    have hw := reads_word "NULL" (by decide) (by decide)
    cases negated with
    | true => exact hw
    | false => exact reads_append hk hw (.inl rfl)
  have hi : Reads true " IS " (spaced "IS") := reads_constant (by decide) fun _ _ _ => rfl
  have he : Reads true "''" [literal []] := reads_constant (by decide) fun _ _ _ => rfl
  have hc : Reads true ("nullIf" ++ _) (call "nullIf" _) := reads_call (by decide) (by decide)
    (reads_append (reads_append (raw_reads l) reads_comma (.inl rfl)) he (.inl rfl))
  have hs : PropertyTest.render l (.isSet negated) = "nullIf" ++
      ("(" ++ (l.raw ++ ", " ++ "''") ++ ")") ++ " IS " ++
        (if negated then "NULL" else "NOT NULL") := by
    have front : "nullIf(" = "nullIf" ++ "(" := joined_chars rfl
    have behind : ", '') IS " = ", " ++ "''" ++ ")" ++ " IS " := by decide
    change "nullIf(" ++ l.raw ++ ", '') IS " ++ (if negated then "NULL" else "NOT NULL") = _
    rw [front, behind]
    simp only [String.append_assoc]
  rw [hs]
  exact reads_append (reads_append hc hi (.inl rfl)) hn (.inl rfl)

theorem property_reads (l : Lookup) (t : PropertyTest) (h : t.Proper) :
    Reads false (t.render l) (t.items l) := by
  cases t with
  | text negated p =>
    have he := reads_append (text_reads l) (equality_reads negated) (.inl rfl)
    exact reads_open (reads_append he (reads_placeholder p h) (.inl rfl)) false
  | flag negated p =>
    have he := reads_append (raw_reads l) (equality_reads negated) (.inl rfl)
    exact reads_open (reads_append he (reads_placeholder p h) (.inl rfl)) false
  | number negated p =>
    cases negated with
    | false =>
      have he := reads_append (number_reads l) (equality_reads false) (.inl rfl)
      exact reads_open (reads_append he (reads_placeholder p h) (.inl rfl)) false
    | true => exact reads_open (unequal_reads l p h) false
  | ordered order p =>
    have hb : Reads true " " [blank] := reads_constant (by decide) fun _ _ _ => rfl
    have hs : Reads true order.symbol (symbol order.symbol) := by
      cases order <;> exact reads_constant (by decide) fun _ _ _ => rfl
    have ho := reads_append (reads_append (reads_append (number_reads l) hb (.inl rfl)) hs
      (.inl rfl)) hb (.inl rfl)
    exact reads_open (reads_append ho (reads_placeholder p h) (.inl rfl)) false
  | like negated p =>
    have hk : Reads true (if negated then " NOT LIKE " else " LIKE ")
        (if negated then [blank, word "NOT", blank, word "LIKE", blank] else spaced "LIKE") := by
      cases negated <;> exact reads_constant (by decide) fun _ _ _ => rfl
    have hl := reads_append (text_reads l) hk (.inl rfl)
    exact reads_open (reads_append hl (reads_placeholder p h) (.inl rfl)) false
  | isSet negated => exact presence_reads l negated

theorem property_plain (l : Lookup) (t : PropertyTest) : Plain (t.items l) := by
  cases t with
  | text negated p =>
    exact plain_append (plain_append (text_plain l) (equality_plain negated)) (plain_hole p)
  | flag negated p =>
    exact plain_append (plain_append (raw_plain l) (equality_plain negated)) (plain_hole p)
  | number negated p =>
    have h := plain_append (plain_append (number_plain l) (equality_plain negated)) (plain_hole p)
    cases negated with
    | false => exact h
    | true => exact plain_call rfl (plain_append (plain_append h (by decide)) (by decide))
  | ordered order p =>
    have hs : Plain (symbol order.symbol) := by cases order <;> decide
    have hn := plain_append (number_plain l) (by decide : Plain [blank])
    exact plain_append (plain_append (plain_append hn hs) (by decide)) (plain_hole p)
  | like negated p =>
    have hk : Plain (if negated then [blank, word "NOT", blank, word "LIKE", blank]
        else spaced "LIKE") := by
      cases negated <;> decide
    exact plain_append (plain_append (text_plain l) hk) (plain_hole p)
  | isSet negated =>
    have hn : Plain (if negated then [word "NULL"] else [word "NOT", blank, word "NULL"]) := by
      cases negated <;> decide
    have he := plain_append (plain_append (raw_plain l) (by decide : Plain comma))
      (plain_literal [])
    have hc : Plain (call "nullIf" _) := plain_call rfl he
    exact plain_append (plain_append hc (by decide)) hn

theorem property_operand (l : Lookup) (t : PropertyTest) :
    Operand (t.items l) (.test (bare (t.items l))) := by
  have hq := quiet_plain (property_plain l t)
  cases t with
  | text negated p => exact operand_test rfl rfl hq rfl
  | flag negated p => exact operand_test rfl rfl hq rfl
  | number negated p => cases negated <;> exact operand_test rfl rfl hq rfl
  | ordered order p => exact operand_test rfl rfl hq rfl
  | like negated p => exact operand_test rfl rfl hq rfl
  | isSet negated => exact operand_test rfl rfl hq rfl

end Sql

end CohortQuery
