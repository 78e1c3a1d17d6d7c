import CohortQuery.Params
import CohortQuery.Proofs.Sql.Token

/-!
# Nested tokens

Parentheses turn the tokens of a statement into a tree. A text that reads as items in every
surrounding may be joined to others; the items of the whole are then those of its parts.
-/

set_option autoImplicit false

namespace CohortQuery.Sql

inductive Item where
  | token (t : Token)
  /-- What stands in one pair of parentheses. -/
  | group (items : List Item)

mutual

def Item.tokens : Item → List Token
  | .token t => [t]
  | .group is => .mark '(' :: (tokensOf is ++ [.mark ')'])

def tokensOf : List Item → List Token
  | [] => []
  | i :: is => i.tokens ++ tokensOf is

end

/-- `outer` are the groups that are still open, the innermost first; items are kept
backwards. -/
def nestFrom : List Token → List (List Item) → List Item → Option (List Item)
  | [], [], inner => some inner.reverse
  | [], _ :: _, _ => none
  | .mark c :: ts, outer, inner =>
    if c = '(' then nestFrom ts (inner :: outer) []
    else if c = ')' then
      match outer with
      | [] => none
      | is :: outer => nestFrom ts outer (.group inner.reverse :: is)
    else nestFrom ts outer (.token (.mark c) :: inner)
  | t :: ts, outer, inner => nestFrom ts outer (.token t :: inner)

def nest (ts : List Token) : Option (List Item) :=
  nestFrom ts [] []

/-- The items of a text, if its literals and parentheses are closed. -/
def read (s : String) : Option (List Item) :=
  (lex s).bind nest

theorem tokens_append (is js : List Item) : tokensOf (is ++ js) = tokensOf is ++ tokensOf js := by
  induction is with
  | nil => rfl
  | cons i is ih => simp [tokensOf, ih]

/-- The tokens that have led to an unfinished state. -/
def pending : List (List Item) → List Item → List Token
  | [], inner => tokensOf inner.reverse
  | is :: outer, inner => pending outer is ++ .mark '(' :: tokensOf inner.reverse

theorem pending_push (outer : List (List Item)) (inner : List Item) (i : Item) :
    pending outer (i :: inner) = pending outer inner ++ i.tokens := by
  cases outer <;> simp [pending, tokens_append, tokensOf]

theorem nest_from_tokens (ts : List Token) (outer : List (List Item)) (inner is : List Item)
    (h : nestFrom ts outer inner = some is) : tokensOf is = pending outer inner ++ ts := by
  fun_induction nestFrom ts outer inner with
  | case1 inner => simp_all [pending]
  | case2 => simp at h
  | case3 ts outer inner ih => simp [ih h, pending, tokensOf]
  | case4 => simp at h
  | case5 ts inner js outer hc ih =>
    rw [ih h, pending_push]
    simp [pending, Item.tokens]
  | case6 ts outer inner c ho hc ih =>
    rw [ih h, pending_push]
    simp [Item.tokens]
  | case7 t ts outer inner ht ih =>
    rw [ih h, pending_push]
    simp [Item.tokens]

/-- Reading invents and drops nothing: the items hold the tokens of the text. -/
theorem read_tokens (s : String) (is : List Item) (h : read s = some is) :
    lex s = some (tokensOf is) := by
  obtain ⟨ts, hl, hn⟩ := Option.bind_eq_some_iff.mp h
  rw [hl, nest_from_tokens ts [] [] is hn]
  rfl

def Nests (is : List Item) : Prop :=
  ∀ rest outer inner, nestFrom (tokensOf is ++ rest) outer inner =
    nestFrom rest outer (is.reverse ++ inner)

theorem nests_append {is js : List Item} (hi : Nests is) (hj : Nests js) :
    Nests (is ++ js) := by
  intro rest outer inner
  rw [tokens_append, List.append_assoc, hi, hj]
  simp

theorem nests_nil : Nests [] :=
  fun _ _ _ => rfl

theorem nests_group {is : List Item} (h : Nests is) : Nests [.group is] := by
  intro rest outer inner
  have hb := h (.mark ')' :: rest) (inner :: outer) []
  have hs : tokensOf [.group is] ++ rest = .mark '(' :: (tokensOf is ++ .mark ')' :: rest) := by
    simp [tokensOf, Item.tokens]
  rw [hs]
  change nestFrom (tokensOf is ++ .mark ')' :: rest) (inner :: outer) [] = _
  rw [hb]
  simp [nestFrom]

theorem nests_token {t : Token} (ho : t ≠ .mark '(') (hc : t ≠ .mark ')') :
    Nests [.token t] := by
  intro rest outer inner
  cases t with
  | mark c =>
    have hco : c ≠ '(' := fun h => ho (by rw [h])
    have hcc : c ≠ ')' := fun h => hc (by rw [h])
    simp [tokensOf, Item.tokens, nestFrom, hco, hcc]
  | word cs => rfl
  | literal raw => rfl
  | hole cs => rfl

theorem nest_from_nests (ts : List Token) (outer : List (List Item)) (inner is : List Item)
    (h : nestFrom ts outer inner = some is) (ho : ∀ js ∈ outer, Nests js.reverse)
    (hi : Nests inner.reverse) : Nests is := by
  have push {js : List Item} {i : Item} (hj : Nests js.reverse) (hn : Nests [i]) :
      Nests (i :: js).reverse := by
    rw [List.reverse_cons]
    exact nests_append hj hn
  fun_induction nestFrom ts outer inner with
  | case1 inner =>
    obtain rfl := Option.some.inj h
    exact hi
  | case2 => simp at h
  | case3 ts outer inner ih => exact ih h (by simpa using ⟨hi, ho⟩) nests_nil
  | case4 => simp at h
  | case5 ts inner js outer hc ih =>
    simp only [List.mem_cons, forall_eq_or_imp] at ho
    exact ih h ho.2 (push ho.1 (nests_group hi))
  | case6 ts outer inner c hno hnc ih =>
    exact ih h ho (push hi (nests_token (by simpa using hno) (by simpa using hnc)))
  | case7 t ts outer inner ht ih =>
    exact ih h ho (push hi (nests_token (fun hc => ht _ hc) (fun hc => ht _ hc)))

/-- `s` reads as the items `is` wherever it stands between other items. -/
structure Reads (closed : Bool) (s : String) (is : List Item) : Prop where
  spells : Spells closed s.toList (tokensOf is)
  nests : Nests is

theorem read_reads {b : Bool} {s : String} {is : List Item} (h : Reads b s is) :
    read s = some is := by
  have hn := h.nests [] [] []
  rw [read, lex_spells h.spells, Option.bind_some, nest]
  simpa [nestFrom] using hn

/-- What is read alone is read so everywhere. -/
theorem reads_read {s : String} {is : List Item} (h : read s = some is) : Reads false s is := by
  obtain ⟨ts, hl, hn⟩ := Option.bind_eq_some_iff.mp h
  have ht : tokensOf is = ts := nest_from_tokens ts [] [] is hn
  refine ⟨?_, nest_from_nests ts [] [] is hn (by simp) nests_nil⟩
  rw [ht]
  exact spells_lex hl

theorem reads_constant {cs : List Char} {is : List Item}
    (h : Lexer.run ⟨[], .between⟩ cs = ⟨(tokensOf is).reverse, .between⟩)
    (hn : Nests is) : Reads true (String.ofList cs) is := by
  refine ⟨spells_closed ?_, hn⟩
  rwa [String.toList_ofList]

theorem joined_chars {as bs cs : List Char} (h : as ++ bs = cs) :
    String.ofList cs = String.ofList as ++ String.ofList bs := by
  rw [← h, String.ofList_append]

/-- A literal or a group may lie across the two pieces of a text. -/
theorem reads_pieces {cs ds : List Char} {is : List Item}
    (h : Lexer.run ⟨[], .between⟩ (cs ++ ds) = ⟨(tokensOf is).reverse, .between⟩)
    (hn : Nests is) : Reads true (String.ofList cs ++ String.ofList ds) is := by
  rw [← joined_chars rfl]
  exact reads_constant h hn

theorem reads_open {s : String} {is : List Item} (h : Reads true s is) (b : Bool) :
    Reads b s is :=
  ⟨spells_open h.spells b, h.nests⟩

/-- A text that cannot lengthen a word before it. -/
def StartsApart (s : String) : Prop :=
  s.toList.head?.any (fun c => !isWordChar c) = true

theorem apart_of_starts {s : String} (h : StartsApart s) : Apart s.toList ∧ s.toList ≠ [] := by
  unfold StartsApart at h
  unfold Apart
  cases hs : s.toList with
  | nil => simp [hs] at h
  | cons c cs => simpa [hs] using h

theorem reads_append {a b : Bool} {s t : String} {is js : List Item}
    (hs : Reads a s is) (ht : Reads b t js) (hm : a = true ∨ StartsApart t) :
    Reads b (s ++ t) (is ++ js) := by
  refine ⟨?_, nests_append hs.nests ht.nests⟩
  rw [String.toList_append, tokens_append]
  exact spells_append hs.spells ht.spells (hm.imp id apart_of_starts)

theorem reads_group {b : Bool} {s : String} {is : List Item} (h : Reads b s is) :
    Reads true ("(" ++ s ++ ")") [.group is] := by
  refine ⟨?_, nests_group h.nests⟩
  intro done rest _
  have hb := h.spells (.mark '(' :: done) (')' :: rest) (.inr (by simp [Apart, isWordChar]))
  have hs : ("(" ++ s ++ ")").toList ++ rest = '(' :: (s.toList ++ ')' :: rest) := by simp
  calc
    _ = (Lexer.run ⟨.mark '(' :: done, .between⟩ (s.toList ++ ')' :: rest)).finish := by
      rw [hs]; rfl
    _ = (Lexer.run ⟨(tokensOf is).reverse ++ .mark '(' :: done, .between⟩
          (')' :: rest)).finish := hb
    _ = _ := by simp [tokensOf, Item.tokens, Lexer.run, Lexer.feed, Lexer.begin, isWordChar]

end CohortQuery.Sql
