import CohortQuery.Proofs.Text.Trim
import CohortQuery.Uuid
import Mathlib.Data.List.Basic

/-!
# UUIDs in groups

A UUID that is written in groups is read as it stands: it has no blank around it, and it cannot
be taken for one without hyphens, in braces or behind `urn:uuid:`.
-/

set_option autoImplicit false

namespace CohortQuery

theorem hex_digit_plain {c : Char} (h : isHexDigit c = true) :
    Text.isBlank c = false ∧ c.toLower ≠ 'u' ∧ c ≠ '\x7b' := by
  have small : c.toNat < 103 := by
    have hf : c ≤ '9' ∨ c ≤ 'f' ∨ c ≤ 'F' := by
      simp only [isHexDigit, Bool.or_eq_true, Bool.and_eq_true, decide_eq_true_eq] at h
      rcases h with (h | h) | h
      · exact .inl h.2
      · exact .inr (.inl h.2)
      · exact .inr (.inr h.2)
    rcases hf with hf | hf | hf
    · exact Nat.lt_of_le_of_lt hf (by decide : '9'.toNat < 103)
    · exact Nat.lt_of_le_of_lt hf (by decide : 'f'.toNat < 103)
    · exact Nat.lt_of_le_of_lt hf (by decide : 'F'.toNat < 103)
  have each : ∀ n < 103, isHexDigit (Char.ofNat n) = true →
      Text.isBlank (Char.ofNat n) = false ∧ (Char.ofNat n).toLower ≠ 'u' ∧
        Char.ofNat n ≠ '\x7b' := by
    decide
  have hc := each c.toNat small
  rw [Char.ofNat_toNat] at hc
  exact hc h

namespace Uuid

theorem digits_hex {ds : List Char} {u : Uuid} (h : ofDigits? ds = some u) :
    ds.length = 32 ∧ ∀ c ∈ ds, isHexDigit c = true := by
  unfold ofDigits? at h
  split at h
  case isTrue hd => exact ⟨hd.1, List.all_eq_true.mp hd.2⟩
  case isFalse => cases h

/-- The digits of a text in groups begin with its first character and end with its last one. -/
theorem ungroup_ends {cs ds : List Char} (hl : cs.length = 36) (h : ungroup? cs = some ds) :
    cs.head? = ds.head? ∧ cs.getLast? = ds.getLast? := by
  simp only [ungroup?, List.splitAt_eq, List.drop_drop] at h
  split at h
  case h_2 => cases h
  case h_1 b c d e _ _ _ he =>
    obtain rfl := Option.some.inj h
    have hn : e.length = 12 := by
      have ht := congrArg List.length he
      rw [List.length_drop, hl, List.length_cons] at ht
      omega
    obtain ⟨x, xs, rfl⟩ := List.exists_cons_of_length_eq_add_one hn
    obtain ⟨y, ys, rfl⟩ := List.exists_cons_of_length_eq_add_one hl
    refine ⟨by simp, ?_⟩
    calc
      (y :: ys).getLast? = ((y :: ys).take 23 ++ '-' :: x :: xs).getLast? := by
        rw [← he, List.take_append_drop]
      _ = (x :: xs).getLast? := by
        rw [List.getLast?_append_of_ne_nil _ (by simp), List.getLast?_cons_cons]
      _ = _ := by rw [List.getLast?_append_of_ne_nil _ (by simp)]

theorem grouped_read {cs : List Char} {u : Uuid} (h : ofGrouped? cs = some u) :
    read (Text.trim (String.ofList cs)) = some u := by
  have hg := h
  unfold ofGrouped? at h
  split at h
  case isFalse => cases h
  case isTrue hl =>
    obtain ⟨ds, hd, hu⟩ := Option.bind_eq_some_iff.mp h
    obtain ⟨hn, hex⟩ := digits_hex hu
    obtain ⟨hh, hb⟩ := ungroup_ends hl hd
    have front : ∀ c ∈ cs.head?, isHexDigit c = true := fun c hc =>
      hex c (List.mem_of_head? (hh ▸ hc))
    have back : ∀ c ∈ cs.getLast?, isHexDigit c = true := fun c hc =>
      hex c (List.mem_of_getLast? (hb ▸ hc))
    have trimmed : Text.trimChars cs = cs := Text.trim_trimmed
      ⟨fun c hc => (hex_digit_plain (front c hc)).1, fun c hc => (hex_digit_plain (back c hc)).1⟩
    obtain ⟨c, cs, rfl⟩ := List.exists_cons_of_length_eq_add_one hl
    obtain ⟨-, notUrn, notBrace⟩ := hex_digit_plain (front c rfl)
    have urn : ((c :: cs).take 9).map Char.toLower ≠ urn := fun hu =>
      notUrn (List.cons.inj hu).1
    have hc : (Text.trim (String.ofList (c :: cs))).toList = c :: cs := by
      rw [Text.trim, String.toList_ofList, String.toList_ofList, trimmed]
    rw [read, hc, if_neg (by omega), if_neg urn]
    split
    case h_1 hc => exact absurd (List.cons.inj hc).1 notBrace
    case h_2 => exact hg

theorem grouped_known {cs : List Char} (h : (ofGrouped? cs).isSome) :
    (read (Text.trim (String.ofList cs))).isSome := by
  obtain ⟨u, hu⟩ := Option.isSome_iff_exists.mp h
  rw [grouped_read hu]
  rfl

theorem grouped_render {cs : List Char} (h : (ofGrouped? cs).map render = some (String.ofList cs)) :
    (read (Text.trim (String.ofList cs))).map render = some (String.ofList cs) := by
  obtain ⟨u, hu, hr⟩ := Option.map_eq_some_iff.mp h
  rw [grouped_read hu, Option.map_some, hr]

end Uuid

end CohortQuery
