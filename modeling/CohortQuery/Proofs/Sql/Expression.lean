import CohortQuery.Proofs.Sql.Reader

/-!
# Expressions

A test on a row as the expression that its text is: columns, literals and values, calls of
functions, and the comparisons between them. Nothing is said here of what the functions do.
-/

set_option autoImplicit false

namespace CohortQuery.Sql

inductive Expression where
  /-- A column, or a number that is written out. -/
  | name (s : String)
  | text (s : String)
  | value (p : Placeholder)
  | call (function : String) (arguments : List Expression)
  | compare (op : CountOperator) (left right : Expression)
  | like (negated : Bool) (subject pattern : Expression)
  | isNull (negated : Bool) (operand : Expression)

mutual

/-- The expression that the signs begin with, and what stands behind it. The first argument
bounds the steps. -/
def expression? : Nat → List Sign → Option (Expression × List Sign)
  | 0, _ => none
  | n + 1, ss =>
    match operand? n ss with
    | none => none
    | some (e, .name "LIKE" :: rest) =>
      (operand? n rest).map fun (f, rest) => (.like false e f, rest)
    | some (e, .name "NOT" :: .name "LIKE" :: rest) =>
      (operand? n rest).map fun (f, rest) => (.like true e f, rest)
    | some (e, .name "IS" :: .name "NULL" :: rest) => some (.isNull false e, rest)
    | some (e, .name "IS" :: .name "NOT" :: .name "NULL" :: rest) => some (.isNull true e, rest)
    | some (e, rest) =>
      match comparison? rest with
      | none => some (e, rest)
      | some (op, rest) => (operand? n rest).map fun (f, rest) => (.compare op e f, rest)

def operand? : Nat → List Sign → Option (Expression × List Sign)
  | n + 1, .name function :: .mark '(' :: ss =>
    (argumentsFrom? n ss).map fun (es, rest) => (.call function es, rest)
  | _ + 1, .name s :: rest => some (.name s, rest)
  | _ + 1, .text s :: rest => some (.text s, rest)
  | _ + 1, .value p :: rest => some (.value p, rest)
  | _, _ => none

def argumentsFrom? : Nat → List Sign → Option (List Expression × List Sign)
  | 0, _ => none
  | n + 1, ss =>
    match expression? n ss with
    | some (e, .mark ',' :: rest) =>
      (argumentsFrom? n rest).map fun (es, rest) => (e :: es, rest)
    | some (e, .mark ')' :: rest) => some ([e], rest)
    | _ => none

end

/-- The signs as one expression. A call of a function takes three steps and has three signs at
least. -/
def Expression.ofSigns? (ss : List Sign) : Option Expression :=
  match expression? (ss.length + 1) ss with
  | some (e, []) => some e
  | _ => none

def Expression.read (s : String) : Option Expression := do
  Expression.ofSigns? (← signs? (← Sql.read s))

def likeSigns (negated : Bool) : List Sign :=
  if negated then [.name "NOT", .name "LIKE"] else [.name "LIKE"]

def nullSigns (negated : Bool) : List Sign :=
  if negated then [.name "IS", .name "NOT", .name "NULL"] else [.name "IS", .name "NULL"]

namespace Expression

mutual

def signs : Expression → List Sign
  | name s => [.name s]
  | text s => [.text s]
  | value p => [.value p]
  | call function es => .name function :: .mark '(' :: signsTo es
  | compare op e f => e.signs ++ (comparisonSigns op ++ f.signs)
  | like negated e f => e.signs ++ (likeSigns negated ++ f.signs)
  | isNull negated e => e.signs ++ nullSigns negated

def signsTo : List Expression → List Sign
  | [] => [.mark ')']
  | [e] => e.signs ++ [.mark ')']
  | e :: f :: es => e.signs ++ .mark ',' :: signsTo (f :: es)

end

def isOperand : Expression → Bool
  | name _ | text _ | value _ | call _ _ => true
  | compare _ _ _ | like _ _ _ | isNull _ _ => false

mutual

/-- There are no parentheses but those of calls, and every function has arguments. -/
def Proper : Expression → Prop
  | name _ | text _ | value _ => True
  | call _ es => es ≠ [] ∧ AllProper es
  | compare _ e f | like _ e f => (e.isOperand ∧ e.Proper) ∧ f.isOperand ∧ f.Proper
  | isNull _ e => e.isOperand ∧ e.Proper

def AllProper : List Expression → Prop
  | [] => True
  | e :: es => e.Proper ∧ AllProper es

end

inductive Behind : List Sign → Prop where
  | nothing : Behind []
  | comma (rest : List Sign) : Behind (.mark ',' :: rest)
  | closing (rest : List Sign) : Behind (.mark ')' :: rest)

def OperandBack (e : Expression) : Prop :=
  ∀ n rest, e.signs.length ≤ n → rest.head? ≠ some (.mark '(') →
    operand? n (e.signs ++ rest) = some (e, rest)

def Back (e : Expression) : Prop :=
  ∀ n rest, e.signs.length < n → Behind rest → expression? n (e.signs ++ rest) = some (e, rest)

def AllBack (es : List Expression) : Prop :=
  ∀ n rest, (signsTo es).length < n → argumentsFrom? n (signsTo es ++ rest) = some (es, rest)

theorem behind_apart {rest : List Sign} (h : Behind rest) : rest.head? ≠ some (.mark '(') := by
  cases h <;> simp

theorem name_back (s : String) : OperandBack (.name s) := by
  intro n rest hn hr
  cases n with
  | zero => cases hn
  | succ n =>
    rw [signs, List.singleton_append, operand?]
    rintro ss rfl
    exact hr rfl

theorem text_back (s : String) : OperandBack (.text s) := by
  intro n rest hn _
  cases n with
  | zero => cases hn
  | succ n => rfl

theorem value_back (p : Placeholder) : OperandBack (.value p) := by
  intro n rest hn _
  cases n with
  | zero => cases hn
  | succ n => rfl

theorem call_back (function : String) {es : List Expression} (h : AllBack es) :
    OperandBack (.call function es) := by
  intro n rest hn hr
  cases n with
  | zero => cases hn
  | succ n =>
    rw [signs, List.cons_append, List.cons_append, operand?, h n rest (Nat.le_of_succ_le_succ hn)]
    rfl

theorem operand_back {e : Expression} (h : OperandBack e) : Back e := by
  intro n rest hn hr
  obtain ⟨n, rfl⟩ := Nat.exists_eq_succ_of_ne_zero (Nat.ne_zero_of_lt hn)
  rw [expression?, h n rest (Nat.le_of_lt_succ hn) (behind_apart hr)]
  cases hr <;> rfl

theorem null_back (negated : Bool) {e : Expression} (h : OperandBack e) :
    Back (.isNull negated e) := by
  intro n rest hn hr
  obtain ⟨n, rfl⟩ := Nat.exists_eq_succ_of_ne_zero (Nat.ne_zero_of_lt hn)
  rw [signs, List.length_append] at hn
  have he := h n (nullSigns negated ++ rest) (by omega) (by cases negated <;> simp [nullSigns])
  rw [signs, List.append_assoc, expression?, he]
  cases negated <;> rfl

theorem like_back (negated : Bool) {e f : Expression} (he : OperandBack e) (hf : OperandBack f) :
    Back (.like negated e f) := by
  intro n rest hn hr
  obtain ⟨n, rfl⟩ := Nat.exists_eq_succ_of_ne_zero (Nat.ne_zero_of_lt hn)
  rw [signs, List.length_append, List.length_append] at hn
  have he := he n (likeSigns negated ++ (f.signs ++ rest)) (by omega)
    (by cases negated <;> simp [likeSigns])
  have hf := hf n rest (by omega) (behind_apart hr)
  rw [signs, List.append_assoc, List.append_assoc, expression?, he]
  cases negated <;>
    · change (operand? n (f.signs ++ rest)).map _ = _
      rw [hf]
      rfl

/-- An operand does not begin with a mark, which could belong to the comparison before it. -/
theorem comparison_front (op : CountOperator) {f : Expression} (hf : f.isOperand)
    (rest : List Sign) :
    comparison? (comparisonSigns op ++ (f.signs ++ rest)) = some (op, f.signs ++ rest) := by
  cases f with
  | name | text | value | call => cases op <;> rfl
  | compare | like | isNull => cases hf

theorem compare_back (op : CountOperator) {e f : Expression} (he : OperandBack e)
    (hf : OperandBack f) (ho : f.isOperand) : Back (.compare op e f) := by
  intro n rest hn hr
  obtain ⟨n, rfl⟩ := Nat.exists_eq_succ_of_ne_zero (Nat.ne_zero_of_lt hn)
  rw [signs, List.length_append, List.length_append] at hn
  have he := he n (comparisonSigns op ++ (f.signs ++ rest)) (by omega)
    (by cases op <;> simp [comparisonSigns])
  have hf := hf n rest (by omega) (behind_apart hr)
  have hc := comparison_front op ho rest
  rw [signs, List.append_assoc, List.append_assoc, expression?, he]
  cases op <;>
    · simp only [comparisonSigns, List.cons_append, List.nil_append] at hc ⊢
      rw [hc]
      dsimp only
      rw [hf]
      rfl

theorem last_back {e : Expression} (h : Back e) : AllBack [e] := by
  intro n rest hn
  obtain ⟨n, rfl⟩ := Nat.exists_eq_succ_of_ne_zero (Nat.ne_zero_of_lt hn)
  rw [signsTo, List.length_append, List.length_singleton] at hn
  rw [signsTo, List.append_assoc, argumentsFrom?, List.singleton_append,
    h n _ (by omega) (.closing rest)]
  rfl

theorem next_back {e : Expression} (h : Back e) {es : List Expression} (hn : es ≠ [])
    (ht : AllBack es) : AllBack (e :: es) := by
  intro n rest hl
  obtain ⟨n, rfl⟩ := Nat.exists_eq_succ_of_ne_zero (Nat.ne_zero_of_lt hl)
  obtain ⟨f, fs, rfl⟩ := List.exists_cons_of_ne_nil hn
  rw [signsTo, List.length_append, List.length_cons] at hl
  have he := h n (.mark ',' :: (signsTo (f :: fs) ++ rest)) (by omega) (.comma _)
  rw [signsTo, List.append_assoc, List.cons_append, argumentsFrom?, he]
  change (argumentsFrom? n _).map _ = _
  rw [ht n rest (by omega)]
  rfl

mutual

theorem expression_back (e : Expression) (h : e.Proper) :
    (e.isOperand → OperandBack e) ∧ Back e := by
  match e, h with
  | .name s, _ => exact ⟨fun _ => name_back s, operand_back (name_back s)⟩
  | .text s, _ => exact ⟨fun _ => text_back s, operand_back (text_back s)⟩
  | .value p, _ => exact ⟨fun _ => value_back p, operand_back (value_back p)⟩
  | .call function es, h =>
    have hc := call_back function (arguments_back es h.1 h.2)
    exact ⟨fun _ => hc, operand_back hc⟩
  | .compare op e f, ⟨⟨hoe, he⟩, hof, hf⟩ =>
    have he := (expression_back e he).1 hoe
    have hf := (expression_back f hf).1 hof
    exact ⟨nofun, compare_back op he hf hof⟩
  | .like negated e f, ⟨⟨hoe, he⟩, hof, hf⟩ =>
    have he := (expression_back e he).1 hoe
    have hf := (expression_back f hf).1 hof
    exact ⟨nofun, like_back negated he hf⟩
  | .isNull negated e, ⟨ho, he⟩ => exact ⟨nofun, null_back negated ((expression_back e he).1 ho)⟩

theorem arguments_back (es : List Expression) (hn : es ≠ []) (h : AllProper es) : AllBack es := by
  match es, hn, h with
  | [e], _, h => exact last_back (expression_back e h.1).2
  | e :: f :: es, _, h =>
    exact next_back (expression_back e h.1).2 (by simp) (arguments_back (f :: es) (by simp) h.2)

end

end Expression

theorem expression_of_signs {e : Expression} (h : e.Proper) :
    Expression.ofSigns? e.signs = some e := by
  have he := (Expression.expression_back e h).2 (e.signs.length + 1) [] (by omega) .nothing
  rw [List.append_nil] at he
  rw [Expression.ofSigns?, he]

namespace Lookup

variable (l : Lookup)

def textExpression : Expression :=
  .call "JSONExtractString" [.name l.bag.column, .text l.key.text]

def rawExpression : Expression :=
  .call "JSONExtractRaw" [.name l.bag.column, .text l.key.text]

def numberExpression : Expression :=
  .call "coalesce" [.call "JSONExtract" [.name l.bag.column, .text l.key.text,
    .text "Nullable(Float64)"], .call "toFloat64OrNull" [l.textExpression]]

end Lookup

def equalityOf (negated : Bool) : CountOperator :=
  if negated then .unequal else .equal

def PropertyTest.expression (l : Lookup) : PropertyTest → Expression
  | text negated p => .compare (equalityOf negated) l.textExpression (.value p)
  | flag negated p => .compare (equalityOf negated) l.rawExpression (.value p)
  | number false p => .compare .equal l.numberExpression (.value p)
  | number true p =>
    .call "ifNull" [.compare .unequal l.numberExpression (.value p), .name "1"]
  | ordered order p => .compare (comparisonOf order) l.numberExpression (.value p)
  | like negated p => .like negated l.textExpression (.value p)
  | isSet negated => .isNull (!negated) (.call "nullIf" [l.rawExpression, .text ""])

theorem expression_proper (l : Lookup) (t : PropertyTest) : (t.expression l).Proper := by
  have ht : l.textExpression.Proper := ⟨by simp, trivial, trivial, trivial⟩
  have hr : l.rawExpression.Proper := ⟨by simp, trivial, trivial, trivial⟩
  have hn : l.numberExpression.Proper :=
    ⟨by simp, ⟨by simp, trivial, trivial, trivial, trivial⟩, ⟨by simp, ht, trivial⟩, trivial⟩
  cases t with
  | text negated p => exact ⟨⟨rfl, ht⟩, rfl, trivial⟩
  | flag negated p => exact ⟨⟨rfl, hr⟩, rfl, trivial⟩
  | number negated p =>
    cases negated with
    | false => exact ⟨⟨rfl, hn⟩, rfl, trivial⟩
    | true => exact ⟨by simp, ⟨⟨rfl, hn⟩, rfl, trivial⟩, trivial, trivial⟩
  | ordered order p => exact ⟨⟨rfl, hn⟩, rfl, trivial⟩
  | like negated p => exact ⟨⟨rfl, ht⟩, rfl, trivial⟩
  | isSet negated => exact ⟨rfl, by simp, hr, trivial, trivial⟩

theorem expression_signs (l : Lookup) (t : PropertyTest) :
    (t.expression l).signs = t.signs l := by
  cases t with
  | number negated p => cases negated <;> rfl
  | isSet negated => cases negated <;> rfl
  | text | flag | ordered | like => rfl

theorem expression_read (l : Lookup) (t : PropertyTest) (h : t.Proper) :
    Expression.read (t.render l) = some (t.expression l) := by
  have hs : signs? (t.items l) = some (t.signs l) := property_signs l t h
  rw [Expression.read, read_reads (property_reads l t h)]
  simp only [Option.bind_eq_bind, Option.bind_some, hs]
  rw [← expression_signs, expression_of_signs (expression_proper l t)]

end CohortQuery.Sql
