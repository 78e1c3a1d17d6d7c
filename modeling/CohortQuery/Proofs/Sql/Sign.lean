import CohortQuery.Proofs.Sql.Hole

/-!
# Signs of an expression

The tokens of an expression without its blanks, each as what it stands for. The tests on rows
and on groups of rows are rows of signs from which they can be read again.
-/

set_option autoImplicit false

namespace CohortQuery.Sql

inductive Sign where
  | name (s : String)
  | text (s : String)
  | value (p : Placeholder)
  | mark (c : Char)
  deriving DecidableEq

def Token.sign? : Token → Option Sign
  | word cs => some (.name (String.ofList cs))
  | literal raw => some (.text (String.ofList (decodeLiteral raw)))
  | hole cs => (Placeholder.ofInner? cs).map .value
  | mark c => some (.mark c)

def Token.isBlank (t : Token) : Bool :=
  (Item.token t).isBlank

def signs? (is : List Item) : Option (List Sign) :=
  ((tokensOf is).filter fun t => !t.isBlank).mapM Token.sign?

def Signs (is : List Item) (ss : List Sign) : Prop :=
  signs? is = some ss

theorem signs_append {is js : List Item} {ss ts : List Sign} (hi : Signs is ss)
    (hj : Signs js ts) : Signs (is ++ js) (ss ++ ts) := by
  unfold Signs signs? at *
  rw [tokens_append, List.filter_append, List.mapM_append, hi, hj]
  rfl

theorem signs_nil : Signs [] [] := rfl

theorem signs_blank {i : Item} (h : i.isBlank = true) : Signs [i] [] := by
  cases i with
  | group is => cases h
  | token t =>
    have hb : t.isBlank = true := h
    simp [Signs, signs?, tokensOf, Item.tokens, hb]

theorem signs_word (w : String) : Signs [word w] [.name w] := by
  simp [Signs, signs?, tokensOf, Item.tokens, word, Token.isBlank, Item.isBlank, Token.sign?]

theorem signs_mark (c : Char) (h : c.isWhitespace = false) : Signs [mark c] [.mark c] := by
  simp [Signs, signs?, tokensOf, Item.tokens, mark, Token.isBlank, Item.isBlank, Token.sign?, h]

theorem signs_literal (cs : List Char) (h : Unescaped cs) :
    Signs [literal cs] [.text (String.ofList cs)] := by
  simp [Signs, signs?, tokensOf, Item.tokens, literal, Token.isBlank, Item.isBlank, Token.sign?,
    decode_literal_plain cs h]

theorem signs_hole (p : Placeholder) (h : p.Proper) : Signs [hole p] [.value p] := by
  have hi := inner_read p h
  have hs : signs? [hole p] = [Token.hole p.inner].mapM Token.sign? := rfl
  simp [Signs, hs, Token.sign?, hi]

theorem signs_group {is : List Item} {ss : List Sign} (h : Signs is ss) :
    Signs [.group is] (.mark '(' :: (ss ++ [.mark ')'])) := by
  have ho := signs_mark '(' (by decide)
  have hc := signs_mark ')' (by decide)
  have hs := signs_append ho (signs_append h hc)
  unfold Signs signs? at *
  simpa [tokensOf, Item.tokens, tokens_append, mark] using hs

def callSigns (name : String) (arguments : List Sign) : List Sign :=
  .name name :: .mark '(' :: (arguments ++ [.mark ')'])

theorem signs_call (name : String) {is : List Item} {ss : List Sign} (h : Signs is ss) :
    Signs (call name is) (callSigns name ss) :=
  signs_append (signs_word name) (signs_group h)

theorem signs_symbol (cs : List Char) (h : ∀ c ∈ cs, c.isWhitespace = false) :
    Signs (cs.map mark) (cs.map .mark) := by
  induction cs with
  | nil => rfl
  | cons c cs ih =>
    exact signs_append (signs_mark c (h c (by simp))) (ih fun d hd => h d (by simp [hd]))

theorem signs_bare (is : List Item) : signs? (bare is) = signs? is := by
  have ht : (tokensOf (bare is)).filter (fun t => !t.isBlank) =
      (tokensOf is).filter fun t => !t.isBlank := by
    induction is with
    | nil => rfl
    | cons i is ih =>
      rw [bare] at ih
      by_cases hb : i.isBlank
      · have hi : i.tokens.filter (fun t => !t.isBlank) = [] := by
          cases i with
          | group is => cases hb
          | token t =>
            have ht : t.isBlank = true := hb
            simp [Item.tokens, ht]
        rw [bare, List.filter_cons_of_neg (by simp [hb]), ih, tokensOf, List.filter_append, hi,
          List.nil_append]
      · rw [bare, List.filter_cons_of_pos (by simp [hb]), tokensOf, tokensOf, List.filter_append,
          List.filter_append, ih]
  rw [signs?, ht]
  rfl

def Moment.signs : Moment → List Sign
  | now => callSigns "now64" [.name "3"]
  | bound p => [.value p]

def Start.signs (s : Start) : List Sign :=
  s.moment.signs ++
    match s.daysBefore with
    | none => []
    | some p => [.mark '-', .name "INTERVAL", .value p, .name "DAY"]

namespace Lookup

def argumentSigns (l : Lookup) : List Sign :=
  [.name l.bag.column, .mark ',', .text l.key.text]

def textSigns (l : Lookup) : List Sign :=
  callSigns "JSONExtractString" l.argumentSigns

def rawSigns (l : Lookup) : List Sign :=
  callSigns "JSONExtractRaw" l.argumentSigns

def numberSigns (l : Lookup) : List Sign :=
  callSigns "coalesce" (callSigns "JSONExtract" (l.argumentSigns ++ [.mark ','] ++
    [.text "Nullable(Float64)"]) ++ [.mark ','] ++ callSigns "toFloat64OrNull" l.textSigns)

end Lookup

def comparisonSigns : CountOperator → List Sign
  | .atLeast => [.mark '>', .mark '=']
  | .above => [.mark '>']
  | .atMost => [.mark '<', .mark '=']
  | .below => [.mark '<']
  | .equal => [.mark '=']
  | .unequal => [.mark '!', .mark '=']

def equalitySigns (negated : Bool) : List Sign :=
  comparisonSigns (if negated then .unequal else .equal)

def comparisonOf : Order → CountOperator
  | .above => .above
  | .atLeast => .atLeast
  | .below => .below
  | .atMost => .atMost

def PropertyTest.signs (l : Lookup) : PropertyTest → List Sign
  | text negated p => l.textSigns ++ equalitySigns negated ++ [.value p]
  | flag negated p => l.rawSigns ++ equalitySigns negated ++ [.value p]
  | number false p => l.numberSigns ++ equalitySigns false ++ [.value p]
  | number true p => callSigns "ifNull"
      (l.numberSigns ++ equalitySigns true ++ [.value p] ++ [.mark ','] ++ [.name "1"])
  | ordered order p => l.numberSigns ++ comparisonSigns (comparisonOf order) ++ [.value p]
  | like negated p =>
    l.textSigns ++ (if negated then [.name "NOT", .name "LIKE"] else [.name "LIKE"]) ++ [.value p]
  | isSet negated => callSigns "nullIf" (l.rawSigns ++ [.mark ','] ++ [.text ""]) ++ [.name "IS"] ++
      (if negated then [.name "NULL"] else [.name "NOT", .name "NULL"])

def RowTest.signs : RowTest → List Sign
  | inProject => .name "project_id" :: (equalitySigns false ++ [.value Bindings.project])
  | equal column p => .name column.render :: (equalitySigns false ++ [.value p])
  | notBefore s => .name "timestamp" :: (comparisonSigns .atLeast ++ s.signs)
  | notAfter m => .name "timestamp" :: (comparisonSigns .atMost ++ m.signs)
  | property l t => t.signs l
  | notIdentify => .name "event_type" :: (equalitySigns true ++ [.text "identify"])

def periodSigns : Period → List Sign
  | .day => callSigns "toStartOfDay" [.name "timestamp"]
  | .week => callSigns "toStartOfWeek" [.name "timestamp", .mark ',', .name "1"]
  | .month => callSigns "toStartOfMonth" [.name "timestamp"]

def GroupTest.signs : GroupTest → List Sign
  | count op p => callSigns "count" [] ++ comparisonSigns op ++ [.value p]
  | periods period p =>
    callSigns "uniqExact" (periodSigns period) ++ comparisonSigns .atLeast ++ [.value p]
  | firstNotBefore s =>
    callSigns "min" [.name "timestamp"] ++ comparisonSigns .atLeast ++ s.signs
  | firstNotAfter m => callSigns "min" [.name "timestamp"] ++ comparisonSigns .atMost ++ m.signs

theorem moment_signs (m : Moment) (h : m.Proper) : Signs m.items m.signs := by
  cases m with
  | now => exact signs_call "now64" (signs_word "3")
  | bound p => exact signs_hole p h

theorem start_signs (s : Start) (h : s.Proper) : Signs s.items s.signs := by
  obtain ⟨m, days⟩ := s
  have hm := moment_signs m h.moment
  cases days with
  | none => exact signs_append hm signs_nil
  | some p =>
    have hb : Signs [blank] [] := signs_blank rfl
    have hi : Signs [blank, mark '-', blank, word "INTERVAL", blank]
        [.mark '-', .name "INTERVAL"] :=
      signs_append hb (signs_append (signs_mark '-' (by decide))
        (signs_append hb (signs_append (signs_word "INTERVAL") hb)))
    have hd : Signs [blank, word "DAY"] [.name "DAY"] := signs_append hb (signs_word "DAY")
    exact signs_append hm (signs_append (signs_append hi (signs_hole p (h.days p rfl))) hd)

theorem comma_signs : Signs comma [.mark ','] :=
  signs_append (signs_mark ',' (by decide)) (signs_blank (i := blank) rfl)

theorem argument_signs (l : Lookup) : Signs l.arguments l.argumentSigns := by
  have hl := signs_literal _ (safe_literal l.key)
  rw [String.ofList_toList] at hl
  exact signs_append (signs_append (signs_word l.bag.column) comma_signs) hl

theorem text_signs (l : Lookup) : Signs l.textItems l.textSigns :=
  signs_call "JSONExtractString" (argument_signs l)

theorem raw_signs (l : Lookup) : Signs l.rawItems l.rawSigns :=
  signs_call "JSONExtractRaw" (argument_signs l)

theorem number_signs (l : Lookup) : Signs l.numberItems l.numberSigns := by
  have hf := signs_literal "Nullable(Float64)".toList (by decide)
  rw [String.ofList_toList] at hf
  have hj := signs_call "JSONExtract" (signs_append (signs_append (argument_signs l) comma_signs)
    hf)
  have ht := signs_call "toFloat64OrNull" (text_signs l)
  exact signs_call "coalesce" (signs_append (signs_append hj comma_signs) ht)

theorem symbol_signs {s : String} (cs : List Char) (hs : s.toList = cs)
    (hw : cs.any Char.isWhitespace = false) : Signs ([blank] ++ symbol s ++ [blank])
      (cs.map .mark) := by
  have h : ∀ c ∈ cs, c.isWhitespace = false := by simpa [List.any_eq_false] using hw
  have hb : Signs [blank] [] := signs_blank rfl
  have hm := signs_append (signs_append hb (signs_symbol cs h)) hb
  rw [symbol, hs]
  simpa using hm

theorem comparison_signs (op : CountOperator) :
    Signs ([blank] ++ symbol op.symbol ++ [blank]) (comparisonSigns op) := by
  cases op
  · exact symbol_signs ['>', '='] rfl (by decide)
  · exact symbol_signs ['>'] rfl (by decide)
  · exact symbol_signs ['<', '='] rfl (by decide)
  · exact symbol_signs ['<'] rfl (by decide)
  · exact symbol_signs ['='] rfl (by decide)
  · exact symbol_signs ['!', '='] rfl (by decide)

theorem equality_signs (negated : Bool) :
    Signs (equalityItems negated) (equalitySigns negated) := by
  cases negated with
  | false => exact comparison_signs .equal
  | true => exact comparison_signs .unequal

theorem property_signs (l : Lookup) (t : PropertyTest) (h : t.Proper) :
    Signs (t.items l) (t.signs l) := by
  have hb : Signs [blank] [] := signs_blank rfl
  cases t with
  | text negated p =>
    exact signs_append (signs_append (text_signs l) (equality_signs negated)) (signs_hole p h)
  | flag negated p =>
    exact signs_append (signs_append (raw_signs l) (equality_signs negated)) (signs_hole p h)
  | number negated p =>
    have hn := signs_append (signs_append (number_signs l) (equality_signs negated))
      (signs_hole p h)
    cases negated with
    | false => exact hn
    | true =>
      exact signs_call "ifNull" (signs_append (signs_append hn comma_signs) (signs_word "1"))
  | ordered order p =>
    have hs : Signs ([blank] ++ symbol order.symbol ++ [blank])
        (comparisonSigns (comparisonOf order)) := by
      cases order
      · exact comparison_signs .above
      · exact comparison_signs .atLeast
      · exact comparison_signs .below
      · exact comparison_signs .atMost
    have ho := signs_append (signs_append (number_signs l) hs) (signs_hole p h)
    simpa [PropertyTest.items, PropertyTest.signs] using ho
  | like negated p =>
    have hk : Signs (if negated then [blank, word "NOT", blank, word "LIKE", blank]
        else spaced "LIKE") (if negated then [.name "NOT", .name "LIKE"] else [.name "LIKE"]) := by
      have hl : Signs (spaced "LIKE") [.name "LIKE"] :=
        signs_append hb (signs_append (signs_word "LIKE") hb)
      cases negated with
      | false => exact hl
      | true => exact signs_append hb (signs_append (signs_word "NOT") hl)
    exact signs_append (signs_append (text_signs l) hk) (signs_hole p h)
  | isSet negated =>
    have hn : Signs (if negated then [word "NULL"] else [word "NOT", blank, word "NULL"])
        (if negated then [.name "NULL"] else [.name "NOT", .name "NULL"]) := by
      cases negated with
      | true => exact signs_word "NULL"
      | false => exact signs_append (signs_word "NOT") (signs_append hb (signs_word "NULL"))
    have hc := signs_call "nullIf" (signs_append (signs_append (raw_signs l)
      comma_signs) (signs_literal [] (by decide)))
    have hi : Signs (spaced "IS") [.name "IS"] :=
      signs_append hb (signs_append (signs_word "IS") hb)
    exact signs_append (signs_append hc hi) hn

theorem less_signs : Signs notLess [.mark '>', .mark '='] := comparison_signs .atLeast

theorem more_signs : Signs notMore [.mark '<', .mark '='] := comparison_signs .atMost

theorem row_signs (t : RowTest) (h : t.Proper) : Signs t.items t.signs := by
  cases t with
  | inProject =>
    exact signs_append (signs_word "project_id") (signs_append (equality_signs false)
      (signs_hole Bindings.project (by decide)))
  | equal column p =>
    exact signs_append (signs_word column.render) (signs_append (equality_signs false)
      (signs_hole p h))
  | notBefore s =>
    exact signs_append (signs_word "timestamp") (signs_append less_signs (start_signs s h))
  | notAfter m =>
    exact signs_append (signs_word "timestamp") (signs_append more_signs (moment_signs m h))
  | property l t => exact property_signs l t h
  | notIdentify =>
    have hl := signs_literal "identify".toList (by decide)
    rw [String.ofList_toList] at hl
    exact signs_append (signs_word "event_type") (signs_append (equality_signs true) hl)

theorem period_signs (period : Period) : Signs (periodItems period) (periodSigns period) := by
  cases period with
  | day => exact signs_call "toStartOfDay" (signs_word "timestamp")
  | week =>
    exact signs_call "toStartOfWeek"
      (signs_append (signs_word "timestamp") (signs_append comma_signs (signs_word "1")))
  | month => exact signs_call "toStartOfMonth" (signs_word "timestamp")

theorem group_test_signs (t : GroupTest) (h : t.Proper) : Signs t.items t.signs := by
  have hm := signs_call "min" (signs_word "timestamp")
  cases t with
  | count op p =>
    have hs := signs_append (signs_append (signs_call "count" signs_nil) (comparison_signs op))
      (signs_hole p h)
    simpa [GroupTest.items, GroupTest.signs] using hs
  | periods period p =>
    exact signs_append (signs_append (signs_call "uniqExact" (period_signs period)) less_signs)
      (signs_hole p h)
  | firstNotBefore s => exact signs_append (signs_append hm less_signs) (start_signs s h)
  | firstNotAfter m => exact signs_append (signs_append hm more_signs) (moment_signs m h)

end CohortQuery.Sql
