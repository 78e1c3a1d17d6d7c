import CohortQuery.Proofs.Sql.Sign

/-!
# Reading tests

A test on a row or on a group of rows is read from its signs. What is no test of a known form
is not read at all.
-/

set_option autoImplicit false

namespace CohortQuery.Sql

def moment? : List Sign → Option (Moment × List Sign)
  | .name "now64" :: .mark '(' :: .name "3" :: .mark ')' :: rest => some (.now, rest)
  | .value p :: rest => some (.bound p, rest)
  | _ => none

def lastMoment? (ss : List Sign) : Option Moment :=
  match moment? ss with
  | some (m, []) => some m
  | _ => none

def start? (ss : List Sign) : Option Start :=
  match moment? ss with
  | some (m, []) => some ⟨m, none⟩
  | some (m, [.mark '-', .name "INTERVAL", .value days, .name "DAY"]) => some ⟨m, some days⟩
  | _ => none

def bag? : String → Option Bag
  | "properties" => some .event
  | "person_properties" => some .person
  | _ => none

def arguments? : List Sign → Option (Lookup × List Sign)
  | .name column :: .mark ',' :: .text key :: rest => do
    return (⟨← bag? column, ← PropertyName.ofText? key⟩, rest)
  | _ => none

def called? (function : String) : List Sign → Option (Lookup × List Sign)
  | .name f :: .mark '(' :: ss =>
    if f = function then
      match arguments? ss with
      | some (l, .mark ')' :: rest) => some (l, rest)
      | _ => none
    else none
  | _ => none

/-- A property that is read as a number in the two ways there are. -/
def number? : List Sign → Option (Lookup × List Sign)
  | .name "coalesce" :: .mark '(' :: .name "JSONExtract" :: .mark '(' :: ss =>
    match arguments? ss with
    | some (l, .mark ',' :: .text "Nullable(Float64)" :: .mark ')' :: .mark ',' ::
        .name "toFloat64OrNull" :: .mark '(' :: rest) =>
      match called? "JSONExtractString" rest with
      | some (m, .mark ')' :: .mark ')' :: rest) => if l = m then some (l, rest) else none
      | _ => none
    | _ => none
  | _ => none

def comparison? : List Sign → Option (CountOperator × List Sign)
  | .mark '>' :: .mark '=' :: rest => some (.atLeast, rest)
  | .mark '>' :: rest => some (.above, rest)
  | .mark '<' :: .mark '=' :: rest => some (.atMost, rest)
  | .mark '<' :: rest => some (.below, rest)
  | .mark '=' :: rest => some (.equal, rest)
  | .mark '!' :: .mark '=' :: rest => some (.unequal, rest)
  | _ => none

def compared? (ss : List Sign) : Option (CountOperator × Placeholder) :=
  match comparison? ss with
  | some (op, [.value p]) => some (op, p)
  | _ => none

/-- Whether the comparison is an equality, and if so whether it is negated. -/
def negation? : CountOperator → Option Bool
  | .equal => some false
  | .unequal => some true
  | .atLeast | .above | .atMost | .below => none

def order? : CountOperator → Option Order
  | .above => some .above
  | .atLeast => some .atLeast
  | .below => some .below
  | .atMost => some .atMost
  | .equal | .unequal => none

def textTest? : List Sign → Option PropertyTest
  | [.name "LIKE", .value p] => some (.like false p)
  | [.name "NOT", .name "LIKE", .value p] => some (.like true p)
  | ss => do
    let (op, p) ← compared? ss
    return .text (← negation? op) p

def flagTest? (ss : List Sign) : Option PropertyTest := do
  let (op, p) ← compared? ss
  return .flag (← negation? op) p

def numberTest? (ss : List Sign) : Option PropertyTest := do
  let (op, p) ← compared? ss
  match op with
  | .equal => return .number false p
  | op => return .ordered (← order? op) p

def presence? : List Sign → Option PropertyTest
  | [.mark ',', .text "", .mark ')', .name "IS", .name "NULL"] => some (.isSet true)
  | [.mark ',', .text "", .mark ')', .name "IS", .name "NOT", .name "NULL"] =>
    some (.isSet false)
  | _ => none

def difference? : List Sign → Option PropertyTest
  | [.mark '!', .mark '=', .value p, .mark ',', .name "1", .mark ')'] => some (.number true p)
  | _ => none

def propertyTest? : List Sign → Option (Lookup × PropertyTest)
  | .name "nullIf" :: .mark '(' :: ss => do
    let (l, rest) ← called? "JSONExtractRaw" ss
    return (l, ← presence? rest)
  | .name "ifNull" :: .mark '(' :: ss => do
    let (l, rest) ← number? ss
    return (l, ← difference? rest)
  | ss =>
    match called? "JSONExtractString" ss, called? "JSONExtractRaw" ss, number? ss with
    | some (l, rest), _, _ => (textTest? rest).map (l, ·)
    | _, some (l, rest), _ => (flagTest? rest).map (l, ·)
    | _, _, some (l, rest) => (numberTest? rest).map (l, ·)
    | _, _, _ => none

def column? : String → Option Column
  | "event_name" => some .eventName
  | "distinct_id" => some .distinctId
  | "cohort_id" => some .cohortId
  | _ => none

def rowTest? : List Sign → Option RowTest
  | [.name "project_id", .mark '=', .value p] =>
    if p = Bindings.project then some .inProject else none
  | [.name "event_type", .mark '!', .mark '=', .text "identify"] => some .notIdentify
  | .name "timestamp" :: .mark '>' :: .mark '=' :: ss => (start? ss).map .notBefore
  | .name "timestamp" :: .mark '<' :: .mark '=' :: ss => (lastMoment? ss).map .notAfter
  | [.name column, .mark '=', .value p] => (column? column).map (.equal · p)
  | ss => (propertyTest? ss).map fun (l, t) => .property l t

def period? : List Sign → Option (Period × List Sign)
  | .name "toStartOfDay" :: .mark '(' :: .name "timestamp" :: .mark ')' :: rest =>
    some (.day, rest)
  | .name "toStartOfWeek" :: .mark '(' :: .name "timestamp" :: .mark ',' :: .name "1" ::
      .mark ')' :: rest => some (.week, rest)
  | .name "toStartOfMonth" :: .mark '(' :: .name "timestamp" :: .mark ')' :: rest =>
    some (.month, rest)
  | _ => none

def groupTest? : List Sign → Option GroupTest
  | .name "count" :: .mark '(' :: .mark ')' :: ss =>
    (compared? ss).map fun (op, p) => .count op p
  | .name "uniqExact" :: .mark '(' :: ss =>
    match period? ss with
    | some (period, [.mark ')', .mark '>', .mark '=', .value p]) => some (.periods period p)
    | _ => none
  | .name "min" :: .mark '(' :: .name "timestamp" :: .mark ')' :: .mark '>' :: .mark '=' :: ss =>
    (start? ss).map .firstNotBefore
  | .name "min" :: .mark '(' :: .name "timestamp" :: .mark ')' :: .mark '<' :: .mark '=' :: ss =>
    (lastMoment? ss).map .firstNotAfter
  | _ => none

theorem moment_read (m : Moment) (rest : List Sign) :
    moment? (m.signs ++ rest) = some (m, rest) := by
  cases m with
  | now => rfl
  | bound p => rfl

theorem last_moment_read (m : Moment) : lastMoment? m.signs = some m := by
  have hm := moment_read m []
  rw [List.append_nil] at hm
  rw [lastMoment?, hm]

theorem start_read (s : Start) : start? s.signs = some s := by
  obtain ⟨m, days⟩ := s
  rw [start?, Start.signs, moment_read]
  cases days with
  | none => rfl
  | some p => rfl

theorem arguments_read (l : Lookup) (rest : List Sign) :
    arguments? (l.argumentSigns ++ rest) = some (l, rest) := by
  have hk : PropertyName.ofText? l.key.text = some l.key := by
    simp [PropertyName.ofText?, l.key.safe]
  have hb : bag? l.bag.column = some l.bag := by cases l.bag <;> rfl
  simp [arguments?, Lookup.argumentSigns, hk, hb]

theorem called_read (function : String) (l : Lookup) (rest : List Sign) :
    called? function (callSigns function l.argumentSigns ++ rest) = some (l, rest) := by
  have ha := arguments_read l (.mark ')' :: rest)
  simp only [callSigns, List.cons_append, List.append_assoc, called?, if_pos, List.nil_append, ha]

theorem called_other {function other : String} (l : Lookup) (rest : List Sign)
    (h : other ≠ function) : called? function (callSigns other l.argumentSigns ++ rest) = none := by
  simp [called?, callSigns, h]

theorem number_read (l : Lookup) (rest : List Sign) :
    number? (l.numberSigns ++ rest) = some (l, rest) := by
  have hc := called_read "JSONExtractString" l (.mark ')' :: .mark ')' :: rest)
  have ha := arguments_read l (.mark ',' :: .text "Nullable(Float64)" :: .mark ')' :: .mark ',' ::
    .name "toFloat64OrNull" :: .mark '(' :: (callSigns "JSONExtractString" l.argumentSigns ++
      .mark ')' :: .mark ')' :: rest))
  have hs : l.numberSigns ++ rest = .name "coalesce" :: .mark '(' :: .name "JSONExtract" ::
      .mark '(' :: (l.argumentSigns ++ .mark ',' :: .text "Nullable(Float64)" :: .mark ')' ::
        .mark ',' :: .name "toFloat64OrNull" :: .mark '(' ::
          (callSigns "JSONExtractString" l.argumentSigns ++ .mark ')' :: .mark ')' :: rest)) := by
    simp [Lookup.numberSigns, Lookup.textSigns, callSigns]
  rw [hs, number?, ha]
  simp only [hc, if_pos]

theorem comparison_read (op : CountOperator) (p : Placeholder) :
    compared? (comparisonSigns op ++ [.value p]) = some (op, p) := by
  cases op <;> rfl

theorem flag_test_read (negated : Bool) (p : Placeholder) :
    flagTest? (equalitySigns negated ++ [.value p]) = some (.flag negated p) := by
  cases negated <;> rfl

theorem text_test_read (negated : Bool) (p : Placeholder) :
    textTest? (equalitySigns negated ++ [.value p]) = some (.text negated p) := by
  cases negated <;> rfl

theorem ordered_test_read (order : Order) (p : Placeholder) :
    numberTest? (comparisonSigns (comparisonOf order) ++ [.value p]) = some (.ordered order p) := by
  cases order <;> rfl

theorem plain_test_read {ss : List Sign} (hn : ss.head? ≠ some (.name "nullIf"))
    (hi : ss.head? ≠ some (.name "ifNull")) : propertyTest? ss =
      match called? "JSONExtractString" ss, called? "JSONExtractRaw" ss, number? ss with
      | some (l, rest), _, _ => (textTest? rest).map (l, ·)
      | _, some (l, rest), _ => (flagTest? rest).map (l, ·)
      | _, _, some (l, rest) => (numberTest? rest).map (l, ·)
      | _, _, _ => none := by
  unfold propertyTest?
  split
  · exact absurd rfl hn
  · exact absurd rfl hi
  · rfl

section

variable (l : Lookup) (rest : List Sign)

theorem text_property_read : propertyTest? (l.textSigns ++ rest) =
    (textTest? rest).map (l, ·) := by
  have ht : called? "JSONExtractString" (l.textSigns ++ rest) = some (l, rest) :=
    called_read _ l rest
  rw [plain_test_read (by simp [Lookup.textSigns, callSigns])
    (by simp [Lookup.textSigns, callSigns]), ht]

theorem raw_property_read : propertyTest? (l.rawSigns ++ rest) =
    (flagTest? rest).map (l, ·) := by
  have ht : called? "JSONExtractString" (l.rawSigns ++ rest) = none :=
    called_other l rest (by decide)
  have hr : called? "JSONExtractRaw" (l.rawSigns ++ rest) = some (l, rest) :=
    called_read _ l rest
  rw [plain_test_read (by simp [Lookup.rawSigns, callSigns])
    (by simp [Lookup.rawSigns, callSigns]), ht, hr]

theorem number_property_read : propertyTest? (l.numberSigns ++ rest) =
    (numberTest? rest).map (l, ·) := by
  have hc (function : String) (h : "coalesce" ≠ function) :
      called? function (l.numberSigns ++ rest) = none := by
    simp [called?, Lookup.numberSigns, callSigns, h]
  rw [plain_test_read (by simp [Lookup.numberSigns, callSigns])
    (by simp [Lookup.numberSigns, callSigns]), hc _ (by decide), hc _ (by decide), number_read]

end

theorem property_test_read (l : Lookup) (t : PropertyTest) :
    propertyTest? (t.signs l) = some (l, t) := by
  cases t with
  | text negated p =>
    rw [PropertyTest.signs, List.append_assoc, text_property_read, text_test_read]
    rfl
  | flag negated p =>
    rw [PropertyTest.signs, List.append_assoc, raw_property_read, flag_test_read]
    rfl
  | number negated p =>
    cases negated with
    | false =>
      rw [PropertyTest.signs, List.append_assoc, number_property_read]
      rfl
    | true =>
      have hs : (PropertyTest.number true p).signs l = .name "ifNull" :: .mark '(' ::
          (l.numberSigns ++ ([.mark '!', .mark '=', .value p, .mark ',', .name "1", .mark ')'] :
            List Sign)) := by
        simp [PropertyTest.signs, callSigns, equalitySigns, comparisonSigns]
      rw [hs, propertyTest?, number_read]
      rfl
  | ordered order p =>
    rw [PropertyTest.signs, List.append_assoc, number_property_read, ordered_test_read]
    rfl
  | like negated p =>
    let like : List Sign := if negated then [.name "NOT", .name "LIKE"] else [.name "LIKE"]
    have ht : textTest? (like ++ [Sign.value p]) = some (.like negated p) := by
      cases negated <;> rfl
    rw [PropertyTest.signs, List.append_assoc, text_property_read, ht]
    rfl
  | isSet negated =>
    let presence : List Sign := [.mark ',', .text "", .mark ')', .name "IS"]
    let null : List Sign := if negated then [.name "NULL"] else [.name "NOT", .name "NULL"]
    have hp : presence? (presence ++ null) = some (.isSet negated) := by
      cases negated <;> rfl
    have hs : (PropertyTest.isSet negated).signs l = .name "nullIf" :: .mark '(' ::
        (callSigns "JSONExtractRaw" l.argumentSigns ++ (presence ++ null)) := by
      simp [PropertyTest.signs, Lookup.rawSigns, callSigns, presence, null]
    rw [hs, propertyTest?, called_read]
    simp only [Option.bind_eq_bind, Option.bind_some, hp]
    rfl

theorem compared_not {f : String} {s : Sign} (rest : List Sign)
    (hs : ∀ c ∈ ['=', '!', '>', '<'], s ≠ .mark c) : rowTest? (.name f :: s :: rest) =
      (propertyTest? (.name f :: s :: rest)).map fun (l, t) => .property l t := by
  have mark {w : String} {c : Char} {ss : List Sign}
      (h : Sign.name f :: s :: rest = .name w :: .mark c :: ss) : s = .mark c :=
    (List.cons.inj (List.cons.inj h).2).1
  unfold rowTest?
  split
  case h_6 => rfl
  all_goals next h => exact absurd (mark h) (hs _ (by simp))

theorem row_test_read (t : RowTest) : rowTest? t.signs = some t := by
  cases t with
  | inProject => rfl
  | equal column p => cases column <;> rfl
  | notBefore s =>
    have hs : rowTest? (RowTest.notBefore s).signs = (start? s.signs).map .notBefore := rfl
    rw [hs, start_read, Option.map_some]
  | notAfter m =>
    have hm : rowTest? (RowTest.notAfter m).signs = (lastMoment? m.signs).map .notAfter := rfl
    rw [hm, last_moment_read, Option.map_some]
  | property l t =>
    have hp := property_test_read l t
    obtain ⟨f, rest, hs⟩ : ∃ f rest, t.signs l = .name f :: .mark '(' :: rest := by
      cases t with
      | number negated p => cases negated <;> exact ⟨_, _, rfl⟩
      | text | flag | ordered | like | isSet => exact ⟨_, _, rfl⟩
    rw [hs] at hp
    rw [RowTest.signs, hs, compared_not rest (by simp), hp, Option.map_some]
  | notIdentify => rfl

theorem group_test_read (t : GroupTest) : groupTest? t.signs = some t := by
  cases t with
  | count op p =>
    have hc : groupTest? (GroupTest.count op p).signs =
        (compared? (comparisonSigns op ++ [.value p])).map fun (op, p) => .count op p := rfl
    rw [hc, comparison_read, Option.map_some]
  | periods period p => cases period <;> rfl
  | firstNotBefore s =>
    have hs : groupTest? (GroupTest.firstNotBefore s).signs =
        (start? s.signs).map .firstNotBefore := rfl
    rw [hs, start_read, Option.map_some]
  | firstNotAfter m =>
    have hm : groupTest? (GroupTest.firstNotAfter m).signs =
        (lastMoment? m.signs).map .firstNotAfter := rfl
    rw [hm, last_moment_read, Option.map_some]

end CohortQuery.Sql
