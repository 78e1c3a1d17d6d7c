import CohortQuery.Json.Value
import Mathlib.Data.List.Nodup

/-!
# Fields with different names

A field that comes again takes the place of the first one, so that fields which are set one after
the other have different names.
-/

set_option autoImplicit false

namespace CohortQuery.Json

/-- No object of the value has two fields of one name. What stands under `value` is an operand
and may be anything. -/
inductive Distinct : Json → Prop where
  | null : Distinct .null
  | bool (b : Bool) : Distinct (.bool b)
  | number (n : Number) : Distinct (.number n)
  | text (s : String) : Distinct (.text s)
  | list {items : List Json} (h : ∀ v ∈ items, Distinct v) : Distinct (.list items)
  | object {fields : Fields} (hn : (fields.map Prod.fst).Nodup)
      (h : ∀ f ∈ fields, f.1 ≠ "value" → Distinct f.2) : Distinct (.object fields)

theorem distinct_list {items : List Json} : Distinct (.list items) ↔ ∀ v ∈ items, Distinct v := by
  constructor
  · intro h
    cases h with
    | list h => exact h
  · exact .list

theorem distinct_object {fields : Fields} : Distinct (.object fields) ↔
    (fields.map Prod.fst).Nodup ∧ ∀ f ∈ fields, f.1 ≠ "value" → Distinct f.2 := by
  constructor
  · intro h
    cases h with
    | object hn h => exact ⟨hn, h⟩
  · exact fun ⟨hn, h⟩ => .object hn h

theorem lookup_distinct {α : Type} {entries : List (String × α)}
    (hn : (entries.map Prod.fst).Nodup) (name : String) (a : α) :
    entries.lookup name = some a ↔ (name, a) ∈ entries := by
  induction entries with
  | nil => simp
  | cons e entries ih =>
    obtain ⟨k, b⟩ := e
    rw [List.map_cons, List.nodup_cons] at hn
    rw [List.lookup_cons]
    by_cases hk : name = k
    · subst hk
      have ho : (name, a) ∉ entries := fun hm => hn.1 (List.mem_map.mpr ⟨_, hm, rfl⟩)
      simp [ho, eq_comm]
    · have hb : (name == k) = false := by simpa using hk
      rw [hb]
      simpa [hk] using ih hn.2

theorem get_field {fields : Fields} (hn : (fields.map Prod.fst).Nodup) (name : String) (v : Json) :
    get? fields name = some v ↔ (name, v) ∈ fields :=
  lookup_distinct hn name v

theorem get_absent (fields : Fields) (name : String) :
    get? fields name = none ↔ ∀ v, (name, v) ∉ fields := by
  unfold get?
  rw [List.lookup_eq_none_iff]
  constructor
  · intro h v hv
    simpa using h _ hv
  · intro h f hf
    have hne : name ≠ f.1 := by
      rintro rfl
      exact h f.2 hf
    simpa using hne

theorem set_names (fields : Fields) (key : String) (v : Json) :
    (fields.set key v).map Prod.fst =
      if key ∈ fields.map Prod.fst then fields.map Prod.fst else fields.map Prod.fst ++ [key] := by
  induction fields with
  | nil => rfl
  | cons f fields ih =>
    obtain ⟨k, w⟩ := f
    by_cases hk : k = key
    · simp [Fields.set, hk]
    · rw [Fields.set, if_neg hk, List.map_cons, ih]
      split <;> simp_all [eq_comm]

theorem mem_set {fields : Fields} {key : String} {v : Json} {f : String × Json}
    (h : f ∈ fields.set key v) : f = (key, v) ∨ f ∈ fields := by
  induction fields with
  | nil => simpa [Fields.set] using h
  | cons g fields ih =>
    obtain ⟨k, w⟩ := g
    by_cases hk : k = key
    · rw [Fields.set, if_pos hk, hk] at h
      rcases List.mem_cons.mp h with rfl | h
      · exact .inl rfl
      · exact .inr (List.mem_cons_of_mem _ h)
    · rw [Fields.set, if_neg hk] at h
      rcases List.mem_cons.mp h with rfl | h
      · exact .inr List.mem_cons_self
      · exact (ih h).imp_right (List.mem_cons_of_mem _)

theorem set_nodup {fields : Fields} (hn : (fields.map Prod.fst).Nodup) (key : String) (v : Json) :
    ((fields.set key v).map Prod.fst).Nodup := by
  rw [set_names]
  split
  next => exact hn
  next hk =>
    refine List.nodup_append.mpr ⟨hn, by simp, ?_⟩
    rintro k hm l hl rfl
    exact hk (List.mem_singleton.mp hl ▸ hm)

end CohortQuery.Json
