import CohortQuery.Text.Like
import Mathlib.Data.List.Infix
import Mathlib.Logic.Function.Defs

/-!
# Texts that match a pattern

A pattern that is escaped matches one text, the one it was made of. Between two `%` it matches
the texts that contain it. So no two texts are escaped alike, and no backslash of an escaped text
guards what comes behind the text.
-/

set_option autoImplicit false

namespace CohortQuery.Text.Like

def front (first : Char → Bool) (rest : List Char → Bool) : List Char → Bool
  | [] => false
  | d :: text => first d && rest text

def matchesAll : List Char → List Char → Bool
  | [] => List.isEmpty
  | '\\' :: c :: pattern => front (fun d => d = c) (matchesAll pattern)
  | c :: pattern =>
    if c = '%' then fun text => text.tails.any (matchesAll pattern)
    else front (fun d => c = '_' || d = c) (matchesAll pattern)

/-- Reading from left to right, every backslash has a character behind it that it guards. -/
def isPaired : List Char → Bool
  | [] => true
  | ['\\'] => false
  | '\\' :: _ :: pattern => isPaired pattern
  | _ :: pattern => isPaired pattern

def escapeChar (c : Char) : List Char :=
  if c = '\\' ∨ c = '%' ∨ c = '_' then ['\\', c] else [c]

theorem guard_char (c : Char) :
    guardAll '_' (guardAll '%' (guardAll '\\' [c])) = escapeChar c := by
  by_cases hb : c = '\\'
  · subst hb
    decide
  · by_cases hp : c = '%'
    · subst hp
      decide
    · by_cases hu : c = '_'
      · subst hu
        decide
      · simp [guardAll, escapeChar, hb, hp, hu]

theorem guard_append (c : Char) (s t : List Char) :
    guardAll c (s ++ t) = guardAll c s ++ guardAll c t :=
  List.flatMap_append

/-- Passes that take one part of a text after the other do what one does that takes each
character. -/
theorem passes_once (pass : List Char → List Char) (hn : pass [] = [])
    (ha : ∀ s t, pass (s ++ t) = pass s ++ pass t) (s : List Char) :
    pass s = s.flatMap fun c => pass [c] := by
  induction s with
  | nil => exact hn
  | cons c s ih => rw [List.flatMap_cons, ← ih, ← ha, List.singleton_append]

theorem escape_chars (s : List Char) : escapeChars s = s.flatMap escapeChar := by
  rw [passes_once escapeChars rfl (fun s t => by simp only [escapeChars, guard_append])]
  exact congrArg s.flatMap (funext guard_char)

def literalChar (c : Char) : List Char :=
  if c = '\\' ∨ c = '\'' then ['\\', c] else [c]

theorem guard_literal (s : List Char) :
    guardAll '\'' (guardAll '\\' s) = s.flatMap literalChar := by
  rw [passes_once (fun s => guardAll '\'' (guardAll '\\' s)) rfl
    (fun s t => by simp only [guard_append])]
  refine congrArg s.flatMap (funext fun c => ?_)
  by_cases hb : c = '\\'
  · subst hb
    decide
  · by_cases hq : c = '\''
    · subst hq
      decide
    · simp [guardAll, literalChar, hb, hq]

theorem escape_cons (c : Char) (s : List Char) :
    escapeChars (c :: s) = escapeChar c ++ escapeChars s := by
  rw [escape_chars, escape_chars, List.flatMap_cons]

theorem matches_any (pattern text : List Char) : matchesAll ('%' :: pattern) text = true ↔
    ∃ rest, rest <:+ text ∧ matchesAll pattern rest = true := by
  simp [matchesAll]

theorem matches_escaped (c : Char) (pattern text : List Char) :
    matchesAll (escapeChar c ++ pattern) text = true ↔
      ∃ rest, text = c :: rest ∧ matchesAll pattern rest = true := by
  by_cases h : c = '\\' ∨ c = '%' ∨ c = '_'
  · have hs : escapeChar c ++ pattern = '\\' :: c :: pattern := by simp [escapeChar, h]
    rw [hs, matchesAll]
    cases text <;> simp [front, and_assoc]
  · obtain ⟨hb, hp, hu⟩ : c ≠ '\\' ∧ c ≠ '%' ∧ c ≠ '_' := by simpa using h
    have hs : escapeChar c ++ pattern = c :: pattern := by simp [escapeChar, hb, hp, hu]
    rw [hs, matchesAll.eq_3 _ _ fun _ _ he _ => hb he, if_neg hp]
    cases text <;> simp [front, hu, and_assoc]

theorem matches_leading (s pattern text : List Char) :
    matchesAll (escapeChars s ++ pattern) text = true ↔
      ∃ rest, text = s ++ rest ∧ matchesAll pattern rest = true := by
  induction s generalizing text with
  | nil => simp [escape_chars]
  | cons c s ih =>
    rw [escape_cons, List.append_assoc, matches_escaped]
    simp only [ih]
    constructor
    · rintro ⟨_, rfl, rest, rfl, hm⟩
      exact ⟨rest, rfl, hm⟩
    · rintro ⟨rest, rfl, hm⟩
      exact ⟨s ++ rest, rfl, rest, rfl, hm⟩

theorem matches_containing (s : String) (text : List Char) :
    matchesAll (containing s).toList text = true ↔ s.toList <:+: text := by
  have hs : (containing s).toList = '%' :: (escapeChars s.toList ++ ['%']) := by
    simp [containing]
  have hany (rest : List Char) : matchesAll ['%'] rest = true :=
    (matches_any [] rest).mpr ⟨[], List.nil_suffix, rfl⟩
  rw [hs, matches_any]
  simp only [matches_leading]
  constructor
  · rintro ⟨_, ⟨before, rfl⟩, rest, rfl, _⟩
    exact ⟨before, rest, by simp⟩
  · rintro ⟨before, rest, rfl⟩
    exact ⟨s.toList ++ rest, ⟨before, by simp⟩, rest, rfl, hany rest⟩

theorem escape_part {s t : String} (h : escape s = escape t) : s.toList <:+: t.toList := by
  have hc : escapeChars s.toList = escapeChars t.toList := String.ofList_injective h
  have hp : containing s = containing t := by rw [containing, containing, hc]
  apply (matches_containing s t.toList).mp
  rw [hp]
  exact (matches_containing t t.toList).mpr List.infix_rfl

theorem escape_injective : Function.Injective escape := by
  intro s t h
  have hs := escape_part h
  have ht := escape_part h.symm
  apply String.toList_injective
  exact hs.eq_of_length (Nat.le_antisymm hs.length_le ht.length_le)

theorem containing_injective : Function.Injective containing := by
  intro s t h
  have hc := List.append_cancel_right (String.ofList_injective h)
  exact escape_injective (congrArg String.ofList (List.tail_eq_of_cons_eq hc))

theorem paired_escaped (c : Char) (pattern : List Char) :
    isPaired (escapeChar c ++ pattern) = isPaired pattern := by
  by_cases h : c = '\\' ∨ c = '%' ∨ c = '_'
  · have hs : escapeChar c ++ pattern = '\\' :: c :: pattern := by simp [escapeChar, h]
    rw [hs, isPaired]
  · have hb : c ≠ '\\' := fun hb => h (.inl hb)
    have hs : escapeChar c ++ pattern = c :: pattern := by simp [escapeChar, h]
    rw [hs, isPaired]
    · exact fun hc _ => hb hc
    · exact fun _ _ hc _ => hb hc

theorem escape_paired (s : List Char) : isPaired (escapeChars s) = true := by
  induction s with
  | nil => rfl
  | cons c s ih => rw [escape_cons, paired_escaped, ih]

/-- The pattern of a text matches exactly the texts in which it occurs. No two texts have the same
escaped form, and none of these ends in a backslash that waits for a character to guard. -/
theorem substring_matched :
    (∀ s t : String, matchesAll (containing s).toList t.toList = true ↔
      s.toList <:+: t.toList) ∧
    Function.Injective escape ∧ ∀ s : String, isPaired (escape s).toList = true := by
  refine ⟨fun s t => matches_containing s t.toList, escape_injective, fun s => ?_⟩
  rw [escape, String.toList_ofList]
  exact escape_paired s.toList

example : matchesAll (containing "\\_").toList "a\\_b".toList = true ∧
    matchesAll (containing "\\_").toList "a\\bb".toList = false := by
  decide

end CohortQuery.Text.Like
