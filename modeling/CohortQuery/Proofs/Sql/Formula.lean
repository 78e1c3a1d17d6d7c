import CohortQuery.Proofs.Sql.Item
import CohortQuery.Text.Numeral
import Mathlib.Data.List.Forall2

/-!
# The boolean meaning of a condition

A condition is read with the usual precedence: parentheses, then `NOT`, then `AND`, then
`OR`. What is none of these is a test, with all that stands in its own parentheses and
quotes. The tests of a condition take truth values one after the other, from a stream, so
that two tests of the same wording may differ.
-/

set_option autoImplicit false

namespace CohortQuery.Sql

/-- A truth value of SQL; `none` is NULL. -/
abbrev Truth := Option Bool

namespace Truth

def not : Truth → Truth
  | some b => some (!b)
  | none => none

def and : Truth → Truth → Truth
  | some false, _ => some false
  | _, some false => some false
  | some true, some true => some true
  | _, _ => none

def or : Truth → Truth → Truth
  | some true, _ => some true
  | _, some true => some true
  | some false, some false => some false
  | _, _ => none

end Truth

theorem not_not_truth (v : Truth) : Truth.not (Truth.not v) = v := by
  rcases v with _ | b <;> simp [Truth.not]

theorem and_true_iff (v w : Truth) :
    Truth.and v w = some true ↔ v = some true ∧ w = some true := by
  rcases v with _ | _ | _ <;> rcases w with _ | _ | _ <;> simp [Truth.and]

theorem or_true_iff (v w : Truth) :
    Truth.or v w = some true ↔ v = some true ∨ w = some true := by
  rcases v with _ | _ | _ <;> rcases w with _ | _ | _ <;> simp [Truth.or]

/-- The values of the tests of a condition, in the order of the text. -/
abbrev Valuation := Nat → Truth

def Valuation.after (ν : Valuation) (k : Nat) : Valuation :=
  fun i => ν (k + i)

theorem after_zero (ν : Valuation) : ν.after 0 = ν := by
  funext i
  simp [Valuation.after]

theorem after_after (ν : Valuation) (j k : Nat) : (ν.after j).after k = ν.after (j + k) := by
  funext i
  simp [Valuation.after, Nat.add_assoc]

inductive Formula (α : Type) where
  | constant (b : Bool)
  | test (a : α)
  | not (f : Formula α)
  | both (f g : Formula α)
  | either (f g : Formula α)

namespace Formula

variable {α : Type}

def tests : Formula α → List α
  | constant _ => []
  | test a => [a]
  | not f => f.tests
  | both f g | either f g => f.tests ++ g.tests

def size (f : Formula α) : Nat := f.tests.length

def eval (ν : Valuation) : Formula α → Truth
  | constant b => some b
  | test _ => ν 0
  | not f => Truth.not (f.eval ν)
  | both f g => Truth.and (f.eval ν) (g.eval (ν.after f.size))
  | either f g => Truth.or (f.eval ν) (g.eval (ν.after f.size))

def conjuncts : Formula α → List (Formula α)
  | both f g => f.conjuncts ++ g.conjuncts
  | f => [f]

def all : List (Formula α) → Formula α
  | [] => constant true
  | [f] => f
  | f :: g :: fs => both f (all (g :: fs))

def any : List (Formula α) → Formula α
  | [] => constant false
  | [f] => f
  | f :: g :: fs => either f (any (g :: fs))

def AllTrue (ν : Valuation) : List (Formula α) → Prop
  | [] => True
  | f :: fs => f.eval ν = some true ∧ AllTrue (ν.after f.size) fs

def AnyTrue (ν : Valuation) : List (Formula α) → Prop
  | [] => False
  | f :: fs => f.eval ν = some true ∨ AnyTrue (ν.after f.size) fs

end Formula

section

variable {α : Type}

open Formula

theorem all_true_iff (fs : List (Formula α)) (ν : Valuation) :
    (all fs).eval ν = some true ↔ AllTrue ν fs := by
  induction fs generalizing ν with
  | nil => simp [all, eval, AllTrue]
  | cons f fs ih =>
    cases fs with
    | nil => simp [all, AllTrue]
    | cons g gs =>
      rw [all, eval, and_true_iff, ih]
      rfl

theorem any_true_iff (fs : List (Formula α)) (ν : Valuation) :
    (any fs).eval ν = some true ↔ AnyTrue ν fs := by
  induction fs generalizing ν with
  | nil => simp [any, eval, AnyTrue]
  | cons f fs ih =>
    cases fs with
    | nil => simp [any, AnyTrue]
    | cons g gs =>
      rw [any, eval, or_true_iff, ih]
      rfl

theorem all_tests (fs : List (Formula α)) : (all fs).tests = fs.flatMap tests := by
  induction fs with
  | nil => rfl
  | cons f fs ih =>
    cases fs with
    | nil => simp [all]
    | cons g gs =>
      rw [all, tests, ih]
      rfl

theorem any_tests (fs : List (Formula α)) : (any fs).tests = fs.flatMap tests := by
  induction fs with
  | nil => rfl
  | cons f fs ih =>
    cases fs with
    | nil => simp [any]
    | cons g gs =>
      rw [any, tests, ih]
      rfl

theorem conjuncts_all (fs : List (Formula α)) (f g : Formula α) (hf : f ∈ fs)
    (hg : g ∈ f.conjuncts) : g ∈ (all fs).conjuncts := by
  induction fs with
  | nil => simp at hf
  | cons e fs ih =>
    cases fs with
    | nil =>
      obtain rfl : f = e := by simpa using hf
      simpa [all] using hg
    | cons d ds =>
      rw [all, conjuncts, List.mem_append]
      rcases List.mem_cons.mp hf with rfl | hf
      · exact .inl hg
      · exact .inr (ih hf)

theorem conjunct_true (f : Formula α) (a : α) (ν : Valuation) (ha : test a ∈ f.conjuncts)
    (ht : f.eval ν = some true) : ∃ k, f.tests[k]? = some a ∧ ν k = some true := by
  induction f generalizing ν with
  | test b =>
    obtain rfl : a = b := by simpa [conjuncts] using ha
    exact ⟨0, by simp [tests], ht⟩
  | both f g ihf ihg =>
    obtain ⟨hf, hg⟩ := (and_true_iff _ _).mp ht
    rcases List.mem_append.mp ha with ha | ha
    · obtain ⟨k, hk, hv⟩ := ihf ν ha hf
      have hlt := (List.getElem?_eq_some_iff.mp hk).1
      exact ⟨k, by rw [tests, List.getElem?_append_left hlt, hk], hv⟩
    · obtain ⟨k, hk, hv⟩ := ihg _ ha hg
      refine ⟨f.size + k, ?_, hv⟩
      rw [tests, size, List.getElem?_append_right (by omega)]
      simpa using hk
  | constant b => simp [conjuncts] at ha
  | not f ih => simp [conjuncts] at ha
  | either f g ihf ihg => simp [conjuncts] at ha

end

def Item.isWord (keyword : String) : Item → Bool
  | .token (.word cs) => cs.map Char.toUpper = keyword.toList
  | _ => false

def Item.isBlank : Item → Bool
  | .token (.mark c) => c.isWhitespace
  | _ => false

/-- What a condition says of its tests, each of which is kept without its outer blanks. -/
abbrev Reading := Formula (List Item)

structure Piece where
  item : Item
  inner : Option Reading

/-- A comparison of two numerals needs no row. -/
def constant? : List Item → Option Bool
  | [.token (.word a), .token (.mark '='), .token (.word b)] =>
    match Text.readNumeral a, Text.readNumeral b with
    | some m, some n => some (m = n)
    | _, _ => none
  | _ => none

def testOf (is : List Item) : Reading :=
  match constant? is with
  | some b => .constant b
  | none => .test is

def operand : List Piece → Option Reading
  | [] => none
  | p :: ps =>
    if p.item.isWord "NOT" then (operand ps).map .not
    else
      match p.item, ps with
      | .group _, [] => p.inner
      | _, _ => some (testOf ((p :: ps).map Piece.item))

def conjunction (ps : List Piece) : Option Reading :=
  ((ps.splitOnP fun p => p.item.isWord "AND").mapM operand).map Formula.all

def disjunction (ps : List Piece) : Option Reading :=
  ((ps.splitOnP fun p => p.item.isWord "OR").mapM conjunction).map Formula.any

def withoutBlanks (ps : List Piece) : List Piece :=
  ps.filter fun p => !p.item.isBlank

mutual

def Item.inner : Item → Option Reading
  | .token _ => none
  | .group is => disjunction (withoutBlanks (pieces is))

def pieces : List Item → List Piece
  | [] => []
  | i :: is => ⟨i, i.inner⟩ :: pieces is

end

/-- The condition that the items write. -/
def formula (is : List Item) : Option Reading :=
  disjunction (withoutBlanks (pieces is))

def condition (s : String) : Option Reading :=
  (read s).bind formula

def between (separator : List Item) : List (List Item) → List Item
  | [] => []
  | [is] => is
  | is :: js :: rest => is ++ separator ++ between separator (js :: rest)

def word (s : String) : Item := .token (.word s.toList)

def mark (c : Char) : Item := .token (.mark c)

def blank : Item := mark ' '

def spaced (keyword : String) : List Item := [blank, word keyword, blank]

/-- The items write a condition that keeps its meaning between `AND`s and `OR`s. -/
structure Operand (is : List Item) (f : Reading) : Prop where
  noAnd : ∀ i ∈ is, i.isWord "AND" = false
  noOr : ∀ i ∈ is, i.isWord "OR" = false
  reads : operand (withoutBlanks (pieces is)) = some f

theorem pieces_map (is : List Item) : pieces is = is.map fun i => ⟨i, i.inner⟩ := by
  induction is with
  | nil => rfl
  | cons i is ih => rw [pieces, ih, List.map_cons]

theorem bare_append (is js : List Item) : withoutBlanks (pieces (is ++ js)) =
    withoutBlanks (pieces is) ++ withoutBlanks (pieces js) := by
  simp [withoutBlanks, pieces_map]

theorem bare_item (is : List Item) (p : Piece) (h : p ∈ withoutBlanks (pieces is)) :
    p.item ∈ is := by
  simp only [withoutBlanks, pieces_map, List.mem_filter, List.mem_map] at h
  obtain ⟨⟨i, hi, rfl⟩, _⟩ := h
  exact hi

theorem operand_bare {is : List Item} {f : Reading} (h : Operand is f) :
    (∀ p ∈ withoutBlanks (pieces is), p.item.isWord "AND" = false) ∧
      ∀ p ∈ withoutBlanks (pieces is), p.item.isWord "OR" = false :=
  ⟨fun p hp => h.noAnd _ (bare_item is p hp), fun p hp => h.noOr _ (bare_item is p hp)⟩

theorem conjunction_operand {is : List Item} {f : Reading} (h : Operand is f) :
    conjunction (withoutBlanks (pieces is)) = some f := by
  rw [conjunction, List.splitOnP_eq_singleton (operand_bare h).1]
  simp [h.reads, Formula.all]

theorem formula_operand {is : List Item} {f : Reading} (h : Operand is f) :
    formula is = some f := by
  rw [formula, disjunction, List.splitOnP_eq_singleton (operand_bare h).2]
  simp [conjunction_operand h, Formula.any]

theorem operand_group {is : List Item} {f : Reading} (h : formula is = some f) :
    Operand [.group is] f := by
  refine ⟨by simp [Item.isWord], by simp [Item.isWord], ?_⟩
  have hi : (Item.group is).inner = some f := by rw [Item.inner, ← formula, h]
  simpa [withoutBlanks, pieces, Item.isBlank, operand, Item.isWord] using hi

theorem split_between (keyword : String) (iss : List (List Item))
    (hk : (word keyword).isWord keyword = true)
    (h : ∀ is ∈ iss, ∀ i ∈ is, i.isWord keyword = false) (hn : iss ≠ []) :
    (withoutBlanks (pieces (between (spaced keyword) iss))).splitOnP
        (fun p => p.item.isWord keyword) =
      iss.map fun is => withoutBlanks (pieces is) := by
  induction iss with
  | nil => exact absurd rfl hn
  | cons is iss ih =>
    have hb : ∀ p ∈ withoutBlanks (pieces is), p.item.isWord keyword = false :=
      fun p hp => h is (by simp) _ (bare_item is p hp)
    cases iss with
    | nil => exact List.splitOnP_eq_singleton hb
    | cons js jss =>
      have hs : withoutBlanks (pieces (spaced keyword)) = [⟨word keyword, none⟩] := by
        rfl
      have hr := ih (fun ks hks => h ks (by simp [hks])) (by simp)
      rw [between, bare_append, bare_append, hs, List.append_assoc, List.singleton_append,
        List.splitOnP_append_cons_of_forall_mem hb _ hk, hr]
      rfl

theorem mem_between {separator : List Item} {iss : List (List Item)} {i : Item}
    (h : i ∈ between separator iss) : i ∈ separator ∨ ∃ is ∈ iss, i ∈ is := by
  induction iss with
  | nil => simp [between] at h
  | cons is iss ih =>
    cases iss with
    | nil => exact .inr ⟨is, by simp, h⟩
    | cons js jss =>
      rw [between, List.mem_append, List.mem_append] at h
      rcases h with (h | h) | h
      · exact .inr ⟨is, by simp, h⟩
      · exact .inl h
      · rcases ih h with h | ⟨ks, hks, hi⟩
        · exact .inl h
        · exact .inr ⟨ks, by simp [hks], hi⟩

theorem all_between {P : Item → Prop} {separator : List Item} {iss : List (List Item)}
    (hs : ∀ i ∈ separator, P i) (h : ∀ is ∈ iss, ∀ i ∈ is, P i) :
    ∀ i ∈ between separator iss, P i := by
  intro i hi
  rcases mem_between hi with hi | ⟨is, his, hi⟩
  · exact hs i hi
  · exact h is his i hi

theorem map_operands {read : List Piece → Option Reading} (iss : List (List Item))
    (fs : List Reading)
    (h : List.Forall₂ (fun is f => read (withoutBlanks (pieces is)) = some f) iss fs) :
    (iss.map fun is => withoutBlanks (pieces is)).mapM read = some fs := by
  induction h with
  | nil => rfl
  | cons hi _ ih => simp [hi, ih]

theorem forall_left {α β : Type} {R : α → β → Prop} {P : α → Prop} {as : List α} {bs : List β}
    (h : List.Forall₂ R as bs) (hp : ∀ a b, R a b → P a) : ∀ a ∈ as, P a := by
  induction h with
  | nil => simp
  | cons hr _ ih =>
    intro a ha
    rcases List.mem_cons.mp ha with rfl | ha
    · exact hp _ _ hr
    · exact ih a ha

/-- Conditions joined by `AND` are read as the conjunction of what they are alone. -/
theorem formula_and (iss : List (List Item)) (fs : List Reading)
    (h : List.Forall₂ Operand iss fs) (hn : iss ≠ []) :
    formula (between (spaced "AND") iss) = some (Formula.all fs) := by
  have ha := forall_left h (fun is f (ho : Operand is f) => ho.noAnd)
  have ho := forall_left h (fun is f (ho : Operand is f) => ho.noOr)
  have hs : ∀ i ∈ spaced "AND", i.isWord "OR" = false := by decide
  have hor : ∀ p ∈ withoutBlanks (pieces (between (spaced "AND") iss)),
      p.item.isWord "OR" = false := by
    intro p hp
    rcases mem_between (bare_item _ p hp) with hi | ⟨is, his, hi⟩
    · exact hs _ hi
    · exact ho is his _ hi
  have hm := map_operands iss fs (h.imp fun _ _ ho => ho.reads)
  rw [formula, disjunction, List.splitOnP_eq_singleton hor]
  simp [conjunction, split_between "AND" iss rfl ha hn, hm, Formula.any]

theorem formula_or (iss : List (List Item)) (fs : List Reading)
    (h : List.Forall₂ Operand iss fs) (hn : iss ≠ []) :
    formula (between (spaced "OR") iss) = some (Formula.any fs) := by
  have ho := forall_left h (fun is f (ho : Operand is f) => ho.noOr)
  have hm := map_operands iss fs (h.imp fun _ _ ho => conjunction_operand ho)
  rw [formula, disjunction, split_between "OR" iss rfl ho hn, hm]
  rfl

theorem condition_operand {b : Bool} {s : String} {is : List Item} {f : Reading}
    (h : Reads b s is) (ho : Operand is f) : condition s = some f := by
  rw [condition, read_reads h]
  exact formula_operand ho

example : condition "NOT a AND b OR c" =
    some (.either (.both (.not (.test [word "a"])) (.test [word "b"])) (.test [word "c"])) :=
  rfl

end CohortQuery.Sql
