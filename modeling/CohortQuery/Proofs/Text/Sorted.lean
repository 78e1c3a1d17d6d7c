import Mathlib.Data.Finset.Card
import Mathlib.Data.String.Basic

/-!
# Sorted texts

Texts that are kept in order and once each make up a list that follows from which texts they
are, and so do their number and their places.
-/

set_option autoImplicit false

namespace CohortQuery.Text

abbrev Sorted (ts : List String) : Prop :=
  ts.Pairwise (· < ·)

def insertSorted (s : String) : List String → List String
  | [] => [s]
  | t :: ts =>
    if s = t then t :: ts
    else if s < t then s :: t :: ts
    else t :: insertSorted s ts

theorem mem_insert_sorted (s t : String) (ts : List String) :
    t ∈ insertSorted s ts ↔ t = s ∨ t ∈ ts := by
  induction ts with
  | nil => simp [insertSorted]
  | cons u ts ih =>
    rw [insertSorted]
    split
    next h => simp [h]
    next =>
      split
      next => simp
      next => rw [List.mem_cons, ih, List.mem_cons, or_left_comm]

theorem insert_sorted (s : String) {ts : List String} (h : Sorted ts) :
    Sorted (insertSorted s ts) := by
  induction ts with
  | nil => exact List.pairwise_singleton _ s
  | cons t ts ih =>
    obtain ⟨hm, hs⟩ := List.pairwise_cons.mp h
    rw [insertSorted]
    split
    next => exact h
    next hne =>
      split
      next hlt =>
        refine List.pairwise_cons.mpr ⟨?_, h⟩
        intro u hu
        rcases List.mem_cons.mp hu with rfl | hu
        · exact hlt
        · exact hlt.trans (hm u hu)
      next hge =>
        have hlt : t < s := lt_of_le_of_ne (not_lt.mp hge) (Ne.symm hne)
        refine List.pairwise_cons.mpr ⟨?_, ih hs⟩
        intro u hu
        rcases (mem_insert_sorted s u ts).mp hu with rfl | hu
        · exact hlt
        · exact hm u hu

theorem sorted_nodup {ts : List String} (h : Sorted ts) : ts.Nodup :=
  h.imp ne_of_lt

theorem sorted_card {ts : List String} (h : Sorted ts) : ts.length = ts.toFinset.card :=
  (List.toFinset_card_of_nodup (sorted_nodup h)).symm

theorem sorted_same {ss ts : List String} (hs : Sorted ss) (ht : Sorted ts)
    (h : ∀ s, s ∈ ss ↔ s ∈ ts) : ss = ts := by
  have hp : ss.Perm ts := (List.perm_ext_iff_of_nodup (sorted_nodup hs) (sorted_nodup ht)).mpr h
  refine List.Perm.eq_of_pairwise ?_ hs ht hp
  intro s t _ _ hst hts
  exact absurd hts hst.not_gt

end CohortQuery.Text
