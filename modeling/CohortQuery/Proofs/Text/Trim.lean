import CohortQuery.Text.Blank
import Mathlib.Data.List.TakeWhile

/-!
# Texts without blanks around them

Trimming leaves a text that neither begins nor ends with a blank, and such a text as it is.
-/

set_option autoImplicit false

namespace CohortQuery.Text

structure Trimmed (s : List Char) : Prop where
  front : ∀ c ∈ s.head?, isBlank c = false
  back : ∀ c ∈ s.getLast?, isBlank c = false

theorem front_kept {s : List Char} (h : ∀ c ∈ s.head?, isBlank c = false) :
    s.dropWhile isBlank = s := by
  cases s with
  | nil => rfl
  | cons c s =>
    have hc : isBlank c = false := h c rfl
    exact List.dropWhile_cons_of_neg (by simp [hc])

theorem front_left (p : Char → Bool) (s : List Char) :
    ∀ c ∈ (s.dropWhile p).head?, p c = false := by
  intro c hc
  have hh := List.head?_dropWhile_not p s
  rw [Option.mem_def] at hc
  rw [hc] at hh
  exact hh

theorem trim_trimmed {s : List Char} (h : Trimmed s) : trimChars s = s := by
  have hb : ∀ c ∈ s.reverse.head?, isBlank c = false := by
    rw [List.head?_reverse]
    exact h.back
  rw [trimChars, front_kept h.front, front_kept hb, List.reverse_reverse]

theorem trimmed_trim (s : List Char) : Trimmed (trimChars s) := by
  constructor
  · intro c hc
    have hs : ((s.dropWhile isBlank).reverse.dropWhile isBlank) <:+ (s.dropWhile isBlank).reverse :=
      List.dropWhile_suffix _
    have hp : trimChars s <+: s.dropWhile isBlank := by
      rw [← List.reverse_suffix, trimChars, List.reverse_reverse]
      exact hs
    obtain ⟨r, hr⟩ := List.head?_eq_some_iff.mp hc
    obtain ⟨t, ht⟩ := hp
    refine front_left isBlank s c ?_
    rw [← ht, hr]
    rfl
  · rw [trimChars, List.getLast?_reverse]
    exact front_left isBlank _

theorem trim_trim (s : List Char) : trimChars (trimChars s) = trimChars s :=
  trim_trimmed (trimmed_trim s)

theorem front_blank {s : List Char} : s.dropWhile isBlank = [] ↔ ∀ c ∈ s, isBlank c = true :=
  List.dropWhile_eq_nil_iff

theorem trim_blank {s : List Char} : trimChars s = [] ↔ ∀ c ∈ s, isBlank c = true := by
  constructor
  · intro h
    rw [trimChars, List.reverse_eq_nil_iff, front_blank] at h
    -- What is left in front does not begin with a blank, so that it is blank only if it is empty.
    cases hs : s.dropWhile isBlank with
    | nil => exact front_blank.mp hs
    | cons c t =>
      have hc : isBlank c = false := front_left isBlank s c (by rw [hs]; rfl)
      rw [h c (by simp [hs])] at hc
      cases hc
  · intro h
    rw [trimChars, front_blank.mpr h]
    rfl

theorem trim_around {w w' : List Char} (s : List Char) (hw : ∀ c ∈ w, isBlank c = true)
    (hw' : ∀ c ∈ w', isBlank c = true) : trimChars (w ++ s ++ w') = trimChars s := by
  have hr : ∀ c ∈ w'.reverse, isBlank c = true := fun c hc => hw' c (List.mem_reverse.mp hc)
  simp only [trimChars]
  rw [List.append_assoc, List.dropWhile_append_of_pos hw, List.dropWhile_append]
  cases hs : s.dropWhile isBlank with
  | nil => simp [front_blank.mpr hw']
  | cons c t =>
    rw [if_neg (by simp), List.reverse_append, List.dropWhile_append_of_pos hr]

end CohortQuery.Text
