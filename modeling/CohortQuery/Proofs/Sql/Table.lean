import CohortQuery.Proofs.Sql.Token

/-!
# The table of a selection

A selection is cut into words, quoted texts and single characters, without its comments. What
follows the first `FROM` is the name of a table, with the name of its database before a point. A
name that is not quoted is a letter or an underscore with letters, digits and underscores behind
it. So a text that is put in front of the point names the database just if it is such a name.
-/

set_option autoImplicit false

namespace CohortQuery.Sql

inductive Quote where
  | single
  | double
  | back
  deriving DecidableEq, Repr

def Quote.char : Quote → Char
  | single => '\''
  | double => '"'
  | back => Char.ofNat 96

def Quote.of? (c : Char) : Option Quote :=
  [single, double, back].find? (·.char = c)

inductive Lexeme where
  /-- Letters, digits and underscores. -/
  | word (cs : List Char)
  /-- What a quoted text stands for. -/
  | quoted (quote : Quote) (cs : List Char)
  | mark (c : Char)
  deriving DecidableEq, Repr

/-- A name that needs no quotes. -/
def isBareName : List Char → Bool
  | [] => false
  | c :: cs => (c.isAlpha || c = '_') && cs.all isWordChar

namespace Lexeme

/-- The name that the lexeme is. A text in single quotes is none. -/
def name? : Lexeme → Option String
  | word cs => if isBareName cs then some (String.ofList cs) else none
  | quoted .single _ => none
  | quoted .double cs | quoted .back cs => some (String.ofList cs)
  | mark _ => none

def isFrom : Lexeme → Bool
  | word cs => cs.map Char.toUpper = ['F', 'R', 'O', 'M']
  | quoted _ _ | mark _ => false

def chars : Lexeme → List Char
  | word cs | quoted _ cs => cs
  | mark _ => []

end Lexeme

inductive Stage where
  | between
  | word (seen : List Char)
  | quoted (quote : Quote) (seen : List Char)
  | escape (quote : Quote) (seen : List Char)
  /-- Behind a quote that closes the text unless it is written twice. -/
  | closing (quote : Quote) (seen : List Char)
  /-- Behind a character that may begin a comment. -/
  | dash
  | slash
  | hash
  /-- In a comment up to the end of the line. -/
  | line
  /-- In a comment up to a star with a slash behind it. -/
  | block
  | star
  deriving DecidableEq, Repr

/-- The lexemes that what is being read becomes if something else begins. -/
def Stage.held : Stage → List Lexeme
  | word seen => [.word seen]
  | closing quote seen => [.quoted quote seen]
  | dash => [.mark '-']
  | slash => [.mark '/']
  | hash => [.mark '#']
  | between | quoted _ _ | escape _ _ | line | block | star => []

def Stage.isOpen : Stage → Bool
  | quoted _ _ | escape _ _ | block | star => true
  | between | word _ | closing _ _ | dash | slash | hash | line => false

structure Scanner where
  /-- The finished lexemes, the last one first. -/
  done : List Lexeme
  stage : Stage
  deriving DecidableEq, Repr

namespace Scanner

def start : Scanner :=
  ⟨[], .between⟩

def begin (done : List Lexeme) (c : Char) : Scanner :=
  if isWordChar c then ⟨done, .word [c]⟩
  else if c.isWhitespace then ⟨done, .between⟩
  else if c = '-' then ⟨done, .dash⟩
  else if c = '/' then ⟨done, .slash⟩
  else if c = '#' then ⟨done, .hash⟩
  else match Quote.of? c with
    | some q => ⟨done, .quoted q []⟩
    | none => ⟨.mark c :: done, .between⟩

/-- What is being read becomes with one character more, or nothing if something else begins. -/
def goes (c : Char) : Stage → Option Stage
  | .between => none
  | .word w => if isWordChar c then some (.word (w ++ [c])) else none
  | .quoted q cs =>
    some (if c = q.char then .closing q cs else if c = '\\' then .escape q cs
      else .quoted q (cs ++ [c]))
  | .escape q cs => some (.quoted q (cs ++ [c]))
  | .closing q cs => if c = q.char then some (.quoted q (cs ++ [c])) else none
  | .dash => if c = '-' then some .line else none
  | .slash => if c = '*' then some .block else none
  | .hash => if c = '!' ∨ c = ' ' then some .line else none
  | .line => some (if c = '\n' then .between else .line)
  | .block => some (if c = '*' then .star else .block)
  | .star => some (if c = '/' then .between else if c = '*' then .star else .block)

def feed (l : Scanner) (c : Char) : Scanner :=
  match goes c l.stage with
  | some r => ⟨l.done, r⟩
  | none => begin (l.stage.held ++ l.done) c

def run (l : Scanner) (cs : List Char) : Scanner :=
  cs.foldl feed l

def finish (l : Scanner) : Option (List Lexeme) :=
  if l.stage.isOpen then none else some (l.stage.held ++ l.done).reverse

end Scanner

/-- The lexemes of a text. A quoted text or a comment without an end is no text. -/
def lexemes (s : String) : Option (List Lexeme) :=
  (Scanner.start.run s.toList).finish

structure TableName where
  database : Option String
  table : String
  deriving DecidableEq, Repr

/-- The name of a table at the front of the lexemes, with at most one point in it. -/
def tableAt? : List Lexeme → Option TableName
  | _ :: .mark '.' :: _ :: .mark '.' :: _ => none
  | a :: .mark '.' :: b :: _ => do return ⟨some (← a.name?), ← b.name?⟩
  | [_, .mark '.'] => none
  | a :: _ => a.name?.map (⟨none, ·⟩)
  | [] => none

def tableOf? (query : String) : Option TableName := do
  let ls ← lexemes query
  tableAt? ((ls.dropWhile fun a => !a.isFrom).drop 1)

section

variable {l : Scanner} {a : Lexeme}

theorem begin_first {done : List Lexeme} (h : done.getLast? = some a) (c : Char) :
    (Scanner.begin done c).done.getLast? = some a := by
  unfold Scanner.begin
  split_ifs
  · exact h
  · exact h
  · exact h
  · exact h
  · exact h
  · split
    next => exact h
    next => simp [List.getLast?_cons, h]

theorem held_first {done : List Lexeme} (h : done.getLast? = some a) (r : Stage) :
    (r.held ++ done).getLast? = some a := by
  rw [List.getLast?_append, h, Option.some_or]

theorem feed_first (h : l.done.getLast? = some a) (c : Char) :
    (l.feed c).done.getLast? = some a := by
  unfold Scanner.feed
  split
  next => exact h
  next => exact begin_first (held_first h _) c

theorem run_first (h : l.done.getLast? = some a) (cs : List Char) :
    (l.run cs).done.getLast? = some a := by
  induction cs generalizing l with
  | nil => exact h
  | cons c cs ih => exact ih (feed_first h c)

theorem finish_first (h : l.done.getLast? = some a) {ls : List Lexeme} (hl : l.finish = some ls) :
    ls.head? = some a := by
  unfold Scanner.finish at hl
  split at hl
  next => cases hl
  next =>
    obtain rfl := Option.some.inj hl
    rw [List.head?_reverse]
    exact held_first h _

end

section

variable (before : List Lexeme)

theorem begin_after (done : List Lexeme) (c : Char) : Scanner.begin (done ++ before) c =
    ⟨(Scanner.begin done c).done ++ before, (Scanner.begin done c).stage⟩ := by
  unfold Scanner.begin
  split_ifs
  · rfl
  · rfl
  · rfl
  · rfl
  · rfl
  · cases Quote.of? c <;> rfl

theorem feed_after (l : Scanner) (c : Char) : Scanner.feed ⟨l.done ++ before, l.stage⟩ c =
    ⟨(l.feed c).done ++ before, (l.feed c).stage⟩ := by
  unfold Scanner.feed
  cases Scanner.goes c l.stage with
  | some r => rfl
  | none => rw [← List.append_assoc, begin_after]

theorem run_after (l : Scanner) (cs : List Char) : Scanner.run ⟨l.done ++ before, l.stage⟩ cs =
    ⟨(l.run cs).done ++ before, (l.run cs).stage⟩ := by
  induction cs generalizing l with
  | nil => rfl
  | cons c cs ih =>
    rw [Scanner.run, List.foldl_cons, feed_after]
    exact ih (l.feed c)

theorem finish_after (l : Scanner) : Scanner.finish ⟨l.done ++ before, l.stage⟩ =
    l.finish.map (before.reverse ++ ·) := by
  unfold Scanner.finish
  split_ifs
  · rfl
  · simp

theorem read_after (cs : List Char) : (Scanner.run ⟨before, .between⟩ cs).finish =
    (Scanner.start.run cs).finish.map (before.reverse ++ ·) := by
  have behind := run_after before Scanner.start cs
  rw [Scanner.start, List.nil_append] at behind
  rw [behind]
  exact finish_after before _

end

theorem lexemes_append {front : String} {ds : List Lexeme}
    (h : Scanner.start.run front.toList = ⟨ds, .between⟩) (s : String) :
    lexemes (front ++ s) = (lexemes s).map (ds.reverse ++ ·) := by
  rw [lexemes, String.toList_append, Scanner.run, List.foldl_append]
  change (Scanner.run (Scanner.start.run _) _).finish = _
  rw [h]
  exact read_after ds s.toList

/-- What is being read is shorter than what was read, but for a word that is all of it. -/
def Stage.Within (text : List Char) : Stage → Prop
  | word w => w = text ∨ w.length < text.length
  | quoted _ cs => cs.length < text.length
  | escape _ cs | closing _ cs => cs.length + 1 < text.length
  | between | dash | slash | hash | line | block | star => True

structure Scanner.Within (text : List Char) (l : Scanner) : Prop where
  done : ∀ a ∈ l.done, a.chars.length < text.length
  stage : l.stage.Within text

section

variable {text : List Char} {r : Stage} {c : Char}

theorem held_within (h : r.Within text) (c : Char) :
    ∀ a ∈ r.held, a.chars.length < (text ++ [c]).length := by
  intro a ha
  rw [List.length_append, List.length_singleton]
  cases r with
  | word w =>
    obtain rfl := List.mem_singleton.mp ha
    rcases h with rfl | h <;> dsimp only [Lexeme.chars] <;> omega
  | closing q cs =>
    obtain rfl := List.mem_singleton.mp ha
    have hc : cs.length + 1 < text.length := h
    dsimp only [Lexeme.chars]
    omega
  | dash | slash | hash =>
    obtain rfl := List.mem_singleton.mp ha
    exact Nat.succ_pos _
  | between | quoted | escape | line | block | star => cases ha

theorem begin_within {done : List Lexeme} (hd : ∀ a ∈ done, a.chars.length < (text ++ [c]).length) :
    (Scanner.begin done c).Within (text ++ [c]) := by
  have hw : Stage.Within (text ++ [c]) (.word [c]) := by
    cases text with
    | nil => exact .inl rfl
    | cons d ds => exact .inr (by simp)
  have pos : 0 < (text ++ [c]).length := by simp
  unfold Scanner.begin
  split_ifs
  · exact ⟨hd, hw⟩
  · exact ⟨hd, trivial⟩
  · exact ⟨hd, trivial⟩
  · exact ⟨hd, trivial⟩
  · exact ⟨hd, trivial⟩
  · split
    next => exact ⟨hd, pos⟩
    next => exact ⟨List.forall_mem_cons.mpr ⟨pos, hd⟩, trivial⟩

theorem goes_within {s : Stage} (hg : Scanner.goes c r = some s) (h : r.Within text) :
    s.Within (text ++ [c]) := by
  have grown : (text ++ [c]).length = text.length + 1 := by simp
  cases r with
  | between => cases hg
  | word w =>
    simp only [Scanner.goes, Option.ite_none_right_eq_some, Option.some.injEq] at hg
    obtain ⟨-, rfl⟩ := hg
    rcases h with rfl | h
    · exact .inl rfl
    · exact .inr (by simp [h])
  | quoted q cs =>
    have hc : cs.length < text.length := h
    obtain rfl := Option.some.inj hg
    split_ifs <;> simp only [Stage.Within, List.length_append, List.length_singleton] <;> omega
  | escape q cs =>
    have hc : cs.length + 1 < text.length := h
    obtain rfl := Option.some.inj hg
    simp only [Stage.Within, List.length_append, List.length_singleton]
    omega
  | closing q cs =>
    have hc : cs.length + 1 < text.length := h
    simp only [Scanner.goes, Option.ite_none_right_eq_some, Option.some.injEq] at hg
    obtain ⟨-, rfl⟩ := hg
    simp only [Stage.Within, List.length_append, List.length_singleton]
    omega
  | dash | slash | hash =>
    simp only [Scanner.goes, Option.ite_none_right_eq_some, Option.some.injEq] at hg
    obtain ⟨-, rfl⟩ := hg
    trivial
  | line | block | star =>
    obtain rfl := Option.some.inj hg
    split_ifs <;> trivial

theorem feed_within {l : Scanner} (h : l.Within text) (c : Char) :
    (l.feed c).Within (text ++ [c]) := by
  obtain ⟨hd, hr⟩ := h
  have finished : ∀ a ∈ l.done, a.chars.length < (text ++ [c]).length := fun a ha =>
    Nat.lt_of_lt_of_le (hd a ha) (by simp)
  unfold Scanner.feed
  split
  next s hs => exact ⟨finished, goes_within hs hr⟩
  next => exact begin_within (List.forall_mem_append.mpr ⟨held_within hr c, finished⟩)

theorem run_within {l : Scanner} (h : l.Within text) (cs : List Char) :
    (l.run cs).Within (text ++ cs) := by
  induction cs generalizing l text with
  | nil => rwa [List.append_nil]
  | cons c cs ih =>
    have next := ih (feed_within h c)
    rwa [List.append_assoc, List.singleton_append] at next

theorem start_within : Scanner.start.Within [] :=
  ⟨List.forall_mem_nil _, trivial⟩

end

/-- In a quoted text or in a comment, with nothing before it. -/
def Scanner.Shut (l : Scanner) : Prop :=
  l.done = [] ∧ (l.stage = .line ∨ l.stage.isOpen = true)

def closes (c : Char) : Bool :=
  (Quote.of? c).isSome || c = '\n' || c = '/'

theorem quote_other {c : Char} (h : Quote.of? c = none) (q : Quote) : c ≠ q.char := by
  have hq := List.find?_eq_none.mp h q (by cases q <;> decide)
  rintro rfl
  simp at hq

theorem feed_shut {l : Scanner} (h : l.Shut) {c : Char} (hc : closes c = false) :
    (l.feed c).Shut := by
  simp only [closes, Bool.or_eq_false_iff, Option.isSome_eq_false_iff, Option.isNone_iff_eq_none,
    decide_eq_false_iff_not] at hc
  obtain ⟨⟨hq, hn⟩, hs⟩ := hc
  obtain ⟨done, stage⟩ := l
  obtain ⟨rfl, rfl | ho⟩ := h
  · simp [Scanner.feed, Scanner.goes, hn, Scanner.Shut]
  · cases stage with
    | quoted q cs =>
      simp only [Scanner.feed, Scanner.goes, if_neg (quote_other hq q)]
      split_ifs <;> exact ⟨rfl, .inr rfl⟩
    | escape q cs => exact ⟨rfl, .inr rfl⟩
    | block =>
      simp only [Scanner.feed, Scanner.goes]
      split_ifs <;> exact ⟨rfl, .inr rfl⟩
    | star =>
      simp only [Scanner.feed, Scanner.goes, if_neg hs]
      split_ifs <;> exact ⟨rfl, .inr rfl⟩
    | between | word | closing | dash | slash | hash | line => cases ho

theorem run_shut {l : Scanner} (h : l.Shut) {cs : List Char} (hc : ∀ c ∈ cs, closes c = false) :
    (l.run cs).Shut := by
  induction cs generalizing l with
  | nil => exact h
  | cons c cs ih =>
    obtain ⟨first, others⟩ := List.forall_mem_cons.mp hc
    exact ih (feed_shut h first) others

theorem finish_shut {l : Scanner} (h : l.Shut) : l.finish = none ∨ l.finish = some [] := by
  obtain ⟨done, stage⟩ := l
  obtain ⟨rfl, rfl | ho⟩ := h
  · exact .inr rfl
  · exact .inl (if_pos ho)

theorem table_first {ls : List Lexeme} {database table : String}
    (h : tableAt? ls = some ⟨some database, table⟩) :
    ∃ a, ls.head? = some a ∧ a.name? = some database := by
  unfold tableAt? at h
  split at h
  next => cases h
  next a b _ _ =>
    simp only [Option.pure_def, Option.bind_eq_bind, Option.bind_eq_some_iff, Option.some.injEq,
      TableName.mk.injEq] at h
    obtain ⟨found, ha, -, -, rfl, -⟩ := h
    exact ⟨a, rfl, ha⟩
  next => cases h
  next => simp at h
  next => cases h

theorem name_chars {a : Lexeme} {name : String} (h : a.name? = some name) :
    a.chars = name.toList := by
  unfold Lexeme.name? at h
  split at h
  next =>
    simp only [Option.ite_none_right_eq_some, Option.some.injEq] at h
    obtain ⟨-, rfl⟩ := h
    rw [String.toList_ofList, Lexeme.chars]
  next => cases h
  next => exact (congrArg String.toList (Option.some.inj h)).symm ▸ String.toList_ofList.symm
  next => exact (congrArg String.toList (Option.some.inj h)).symm ▸ String.toList_ofList.symm
  next => cases h

/-- A text behind a point in which nothing is closed. -/
structure Pointed (s : String) : Prop where
  begins : ∃ cs, s.toList = '.' :: cs
  shut : ∀ c ∈ s.toList, closes c = false

theorem pointed_chars (cs : List Char) (h : ('.' :: cs).any closes = false) :
    Pointed (String.ofList ('.' :: cs)) := by
  refine ⟨⟨cs, String.toList_ofList⟩, fun c hc => ?_⟩
  rw [String.toList_ofList] at hc
  exact Bool.eq_false_iff.mpr (List.any_eq_false.mp h c hc)

theorem begin_point (done : List Lexeme) :
    Scanner.begin done '.' = ⟨.mark '.' :: done, .between⟩ :=
  rfl

theorem point_other (q : Quote) : '.' ≠ q.char :=
  quote_other (by decide) q

theorem point_read (r : Stage) : Scanner.Shut ⟨[], r⟩ ∨
    (Scanner.feed ⟨[], r⟩ '.').done = .mark '.' :: r.held := by
  cases r with
  | quoted | escape | block | star => exact .inl ⟨rfl, .inr rfl⟩
  | line => exact .inl ⟨rfl, .inl rfl⟩
  | closing q cs =>
    right
    simp only [Scanner.feed, Scanner.goes, if_neg (point_other q), begin_point, List.append_nil]
  | between | word | dash | slash | hash => exact .inr rfl

theorem held_named {r : Stage} {text : List Char} (h : r.Within text) {a : Lexeme}
    (ha : (.mark '.' :: r.held).getLast? = some a) {name : String} (hn : a.name? = some name)
    (ht : name.toList = text) : isBareName text = true := by
  have short {cs : List Char} {q : Quote} (hc : cs.length < text.length) :
      (Lexeme.quoted q cs).name? ≠ some name := by
    intro he
    rw [← ht, ← name_chars he] at hc
    exact Nat.lt_irrefl _ hc
  cases r with
  | word w =>
    obtain rfl : .word w = a := Option.some.inj ha
    rw [← ht, ← name_chars hn]
    simp only [Lexeme.name?, Option.ite_none_right_eq_some] at hn
    exact hn.1
  | closing q cs =>
    obtain rfl := Option.some.inj ha
    exact absurd hn (short (Nat.lt_of_succ_lt h))
  | between | dash | slash | hash | quoted | escape | line | block | star =>
    obtain rfl := Option.some.inj ha
    cases hn

theorem pointed_bare {database behind : String} (hb : Pointed behind) {ls : List Lexeme}
    (hl : lexemes (database ++ behind) = some ls) {a : Lexeme} (ha : ls.head? = some a)
    (hn : a.name? = some database) : isBareName database.toList = true := by
  obtain ⟨cs, hc⟩ := hb.begins
  have within := run_within start_within database.toList
  rw [lexemes, String.toList_append, Scanner.run, List.foldl_append] at hl
  change (Scanner.run (Scanner.start.run _) _).finish = _ at hl
  generalize Scanner.start.run database.toList = l at within hl
  obtain ⟨done, stage⟩ := l
  rw [List.nil_append] at within
  cases hd : done.getLast? with
  | some b =>
    have first := finish_first (run_first hd behind.toList) hl
    obtain rfl := Option.some.inj (first.symm.trans ha)
    have short := within.done b (List.mem_of_getLast? hd)
    rw [name_chars hn] at short
    exact absurd short (Nat.lt_irrefl _)
  | none =>
    obtain rfl := List.getLast?_eq_none_iff.mp hd
    rcases point_read stage with shut | point
    · rcases finish_shut (run_shut shut hb.shut) with hf | hf
      · cases hf.symm.trans hl
      · obtain rfl := Option.some.inj (hf.symm.trans hl)
        cases ha
    · have first := congrArg List.getLast? point
      cases hg : (Lexeme.mark '.' :: stage.held).getLast? with
      | none => simp at hg
      | some b =>
        rw [hg] at first
        rw [hc] at hl
        have front := finish_first (run_first first cs) hl
        obtain rfl := Option.some.inj (front.symm.trans ha)
        exact held_named within.stage hg hn rfl

theorem run_bare (done : List Lexeme) (w cs : List Char) (h : ∀ c ∈ cs, isWordChar c = true) :
    Scanner.run ⟨done, .word w⟩ cs = ⟨done, .word (w ++ cs)⟩ := by
  induction cs generalizing w with
  | nil => rw [List.append_nil]; rfl
  | cons c cs ih =>
    obtain ⟨hc, hr⟩ := List.forall_mem_cons.mp h
    have next := ih (w ++ [c]) hr
    rw [List.append_assoc, List.singleton_append] at next
    rw [← next, Scanner.run, List.foldl_cons, Scanner.feed, Scanner.goes, if_pos hc]
    rfl

theorem bare_chars {cs : List Char} (h : isBareName cs = true) :
    cs ≠ [] ∧ ∀ c ∈ cs, isWordChar c = true := by
  cases cs with
  | nil => cases h
  | cons c cs =>
    simp only [isBareName, Bool.and_eq_true, Bool.or_eq_true, decide_eq_true_eq] at h
    obtain ⟨first, others⟩ := h
    refine ⟨List.cons_ne_nil _ _, List.forall_mem_cons.mpr ⟨?_, List.all_eq_true.mp others⟩⟩
    rcases first with ha | rfl
    · simp [isWordChar, Char.isAlphanum, ha]
    · decide

theorem bare_read {cs : List Char} (h : isBareName cs = true) :
    Scanner.start.run cs = ⟨[], .word cs⟩ := by
  obtain ⟨hn, hw⟩ := bare_chars h
  obtain ⟨c, cs, rfl⟩ := List.exists_cons_of_ne_nil hn
  obtain ⟨hc, hr⟩ := List.forall_mem_cons.mp hw
  have first : Scanner.start.feed c = ⟨[], .word [c]⟩ := if_pos hc
  rw [Scanner.run, List.foldl_cons, first]
  exact run_bare [] [c] cs hr

theorem bare_pointed {database behind : String} (hb : Pointed behind)
    (h : isBareName database.toList = true) :
    lexemes (database ++ behind) = (lexemes behind).map (.word database.toList :: ·) := by
  obtain ⟨cs, hc⟩ := hb.begins
  have point (w : List Char) : Scanner.run ⟨[], .word w⟩ ('.' :: cs) =
      Scanner.run ⟨[.word w], .between⟩ ('.' :: cs) := rfl
  rw [lexemes, String.toList_append, Scanner.run, List.foldl_append]
  change (Scanner.run (Scanner.start.run _) _).finish = _
  rw [bare_read h, hc, point, read_after, lexemes, hc]
  rfl

theorem table_pointed {cs w : List Char} {a : Lexeme} (hb : Pointed (String.ofList cs))
    (hl : (Scanner.start.run cs).finish.map (·.take 3) = some [.mark '.', .word w, a])
    (hw : isBareName w = true) (ha : a ≠ .mark '.') (database : String) :
    (lexemes (database ++ String.ofList cs)).bind tableAt? =
        some ⟨some database, String.ofList w⟩ ↔
      isBareName database.toList = true := by
  obtain ⟨ls, hl, front⟩ := Option.map_eq_some_iff.mp hl
  obtain ⟨more, rfl⟩ : ∃ more, ls = .mark '.' :: .word w :: a :: more :=
    ⟨ls.drop 3, (List.take_append_drop 3 ls).symm.trans (congrArg (· ++ ls.drop 3) front)⟩
  constructor
  · intro h
    obtain ⟨ls, hs, found⟩ := Option.bind_eq_some_iff.mp h
    obtain ⟨b, hf, hn⟩ := table_first found
    exact pointed_bare hb hs hf hn
  · intro h
    have ht : (Lexeme.word w).name? = some (String.ofList w) := if_pos hw
    have hd : (Lexeme.word database.toList).name? = some database := by
      rw [Lexeme.name?, if_pos h, String.ofList_toList]
    rw [bare_pointed hb h, lexemes, String.toList_ofList, hl, Option.map_some, Option.bind_some,
      tableAt?]
    · simp [hd, ht]
    · rintro ls ⟨⟩
      exact ha rfl

theorem table_front {front : List Char} (hr : (Scanner.start.run front).stage = .between)
    {a : Lexeme} (hf : (Scanner.start.run front).done.reverse.dropWhile (!·.isFrom) = [a])
    (s : String) : tableOf? (String.ofList front ++ s) = (lexemes s).bind tableAt? := by
  generalize hl : Scanner.start.run front = l at hr hf
  obtain ⟨ds, stage⟩ := l
  obtain rfl : stage = .between := hr
  have ha : ds.reverse.dropWhile (!·.isFrom) = [a] := hf
  rw [tableOf?, lexemes_append (by rw [String.toList_ofList, hl])]
  cases lexemes s with
  | none => rfl
  | some ls =>
    have dropped : (ds.reverse ++ ls).dropWhile (!·.isFrom) = a :: ls := by
      rw [List.dropWhile_append, ha]
      rfl
    exact congrArg (fun ls => tableAt? (ls.drop 1)) dropped

example : tableOf? "SELECT a FROM b.c -- FROM d" = some ⟨some "b", "c"⟩ := by decide +kernel
example : tableOf? "SELECT a FROM \"b-\\\"\".c" = some ⟨some "b-\"", "c"⟩ := by decide +kernel
example : tableOf? "SELECT a FROM my-db.c" = some ⟨none, "my"⟩ := by decide +kernel

end CohortQuery.Sql
