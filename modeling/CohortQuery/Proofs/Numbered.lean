import CohortQuery.Proofs.Binder
import Mathlib.Data.List.TakeWhile

/-!
# Numbered names

Fresh names are told apart by their numbers, whatever their stems are. So no value that is
bound to one gets lost, and what was bound before stays as it is.
-/

set_option autoImplicit false

namespace CohortQuery

namespace Params

def setAll (params : Params) (entries : List (String × Value)) : Params :=
  entries.foldl (fun params (name, v) => params.set name v) params

def Has (params : Params) (entries : List (String × Value)) : Prop :=
  ∀ e ∈ entries, params.get? e.1 = some e.2

end Params

theorem has_append (params : Params) (us vs : List (String × Value)) :
    params.Has (us ++ vs) ↔ params.Has us ∧ params.Has vs := by
  simp only [Params.Has, List.mem_append, or_imp, forall_and]

theorem get_set_all_other (params : Params) (name : String) (entries : List (String × Value))
    (h : name ∉ entries.map Prod.fst) :
    (params.setAll entries).get? name = params.get? name := by
  induction entries generalizing params with
  | nil => rfl
  | cons e entries ih =>
    rw [List.map_cons, List.mem_cons, not_or] at h
    have ht := ih (params.set e.1 e.2) h.2
    rw [get_set_other _ _ _ _ h.1] at ht
    exact ht

theorem get_set_all (params : Params) (name : String) (v : Value)
    (entries : List (String × Value)) (hd : (entries.map Prod.fst).Nodup) :
    (params.setAll entries).get? name = some v ↔
      (name, v) ∈ entries ∨ (params.get? name = some v ∧ name ∉ entries.map Prod.fst) := by
  induction entries generalizing params with
  | nil => simp [Params.setAll]
  | cons e entries ih =>
    obtain ⟨k, w⟩ := e
    rw [List.map_cons, List.nodup_cons] at hd
    have hs : params.setAll ((k, w) :: entries) = (params.set k w).setAll entries := rfl
    by_cases hk : name = k
    · subst hk
      have hn (u : Value) : (name, u) ∉ entries := fun hu =>
        hd.1 (List.mem_map.mpr ⟨_, hu, rfl⟩)
      rw [hs, get_set_all_other _ _ _ hd.1, get_set]
      simp [hn, eq_comm]
    · rw [hs, ih _ hd.2, get_set_other _ _ _ _ hk]
      simp [hk]

theorem get_filter (params : Params) (keep : String → Bool) (name : String) :
    Params.get? (params.filter fun e => keep e.1) name =
      if keep name then params.get? name else none := by
  unfold Params.get?
  induction params with
  | nil => simp
  | cons e params ih =>
    obtain ⟨k, v⟩ := e
    rw [List.filter_cons]
    by_cases hk : name = k
    · subst hk
      by_cases hn : keep name
      · simp [hn]
      · rw [if_neg hn, ih, if_neg hn, if_neg hn]
    · have hb : (name == k) = false := by simpa using hk
      by_cases hn : keep k
      · rw [if_pos hn, List.lookup_cons, List.lookup_cons, hb, ih]
      · rw [if_neg hn, List.lookup_cons, hb, ih]

namespace Bindings

theorem digits_injective {m n : Nat} (h : Nat.toDigits 10 m = Nat.toDigits 10 n) : m = n := by
  have hm := Nat.ofDigitChars_ten_toDigits (n := m)
  rw [h, Nat.ofDigitChars_ten_toDigits] at hm
  exact hm.symm

theorem fresh_name_digits (stem : String) (n : Nat) :
    (freshName stem n).toList.reverse.takeWhile Char.isDigit = (Nat.toDigits 10 n).reverse := by
  have hd : ∀ c ∈ (Nat.toDigits 10 n).reverse, c.isDigit = true := fun c hc =>
    Nat.isDigit_of_mem_toDigits (by omega) (by omega) (List.mem_reverse.mp hc)
  have hu : ('_' : Char).isDigit = false := by decide
  rw [fresh_name_chars, List.reverse_append, List.reverse_cons, List.append_assoc,
    List.takeWhile_append_of_pos hd]
  simp [hu]

theorem fresh_name_injective {s t : String} {m n : Nat} (h : freshName s m = freshName t n) :
    s = t ∧ m = n := by
  have hd := fresh_name_digits s m
  rw [h, fresh_name_digits, List.reverse_inj] at hd
  obtain rfl := digits_injective hd
  refine ⟨?_, rfl⟩
  have hc := congrArg String.toList h
  rw [fresh_name_chars, fresh_name_chars] at hc
  exact String.toList_inj.mp (List.append_cancel_right hc)

/-- The values under the names they get when they are bound behind `n` others. -/
def numbered (n : Nat) : List (String × Value) → List (String × Value)
  | [] => []
  | (stem, v) :: vs => (freshName stem n, v) :: numbered (n + 1) vs

theorem numbered_append (n : Nat) (us vs : List (String × Value)) :
    numbered n (us ++ vs) = numbered n us ++ numbered (n + us.length) vs := by
  induction us generalizing n with
  | nil => rfl
  | cons u us ih =>
    rw [List.cons_append, numbered, ih, List.length_cons, numbered, List.cons_append,
      Nat.add_assoc, Nat.add_comm 1]

theorem numbered_number {n : Nat} {vs : List (String × Value)} {name : String}
    (h : name ∈ (numbered n vs).map Prod.fst) : ∃ stem k, n ≤ k ∧ name = freshName stem k := by
  induction vs generalizing n with
  | nil => simp [numbered] at h
  | cons v vs ih =>
    rw [numbered, List.map_cons, List.mem_cons] at h
    rcases h with rfl | h
    · exact ⟨v.1, n, Nat.le_refl n, rfl⟩
    · obtain ⟨stem, k, hk, rfl⟩ := ih h
      exact ⟨stem, k, Nat.le_of_succ_le hk, rfl⟩

theorem numbered_nodup (n : Nat) (vs : List (String × Value)) :
    ((numbered n vs).map Prod.fst).Nodup := by
  induction vs generalizing n with
  | nil => exact List.nodup_nil
  | cons v vs ih =>
    rw [numbered, List.map_cons, List.nodup_cons]
    refine ⟨?_, ih (n + 1)⟩
    intro h
    obtain ⟨stem, k, hk, he⟩ := numbered_number h
    obtain ⟨_, rfl⟩ := fresh_name_injective he
    omega

theorem unnumbered (n : Nat) (vs : List (String × Value)) {name : String}
    (h : name.toList.getLast?.any Char.isDigit = false) :
    name ∉ (numbered n vs).map Prod.fst := by
  intro hn
  obtain ⟨stem, k, _, he⟩ := numbered_number hn
  exact fresh_name_ne stem name k h he

theorem bind_all_params (b : Bindings) (vs : List (String × Value)) :
    (b.bindAll vs).params = b.params.setAll (numbered b.counter vs) := by
  induction vs generalizing b with
  | nil => rfl
  | cons v vs ih => exact ih (b.bind v.1 v.2).2

theorem bind_all_has (b : Bindings) (vs : List (String × Value)) :
    (b.bindAll vs).params.Has (numbered b.counter vs) := by
  intro e he
  rw [bind_all_params, get_set_all _ _ _ _ (numbered_nodup _ _)]
  exact .inl he

end Bindings

end CohortQuery
