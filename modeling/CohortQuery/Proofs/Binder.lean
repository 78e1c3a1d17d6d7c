import CohortQuery.Bindings
import Mathlib.Tactic.SplitIfs

/-!
# What a compilation step yields

A step that succeeds is taken apart into the steps it is made of, each of which leads from
bindings to bindings. Fresh names are bound in the order of the values.
-/

set_option autoImplicit false

namespace CohortQuery

namespace Binder

variable {α β : Type}

def outcome (m : Binder α) (b : Bindings) : Except CompileError α × Bindings :=
  m.run.run b

/-- From the bindings `b` the step succeeds with `a` and leaves `c`. -/
def Yields (m : Binder α) (b : Bindings) (a : α) (c : Bindings) : Prop :=
  m.outcome b = (.ok a, c)

theorem outcome_bind (m : Binder α) (f : α → Binder β) (b : Bindings) :
    (m >>= f).outcome b = match m.outcome b with
      | (.ok a, c) => (f a).outcome c
      | (.error e, c) => (.error e, c) := by
  have h : (m >>= f).outcome b =
      (ExceptT.bindCont f (m.outcome b).1 : StateM Bindings _).run (m.outcome b).2 := rfl
  rw [h]
  generalize m.outcome b = r
  obtain ⟨e | a, c⟩ := r <;> rfl

theorem yields_pure (a a' : α) (b c : Bindings) :
    (pure a : Binder α).Yields b a' c ↔ a' = a ∧ c = b := by
  constructor
  · intro h
    cases h
    exact ⟨rfl, rfl⟩
  · rintro ⟨rfl, rfl⟩
    rfl

theorem yields_bind (m : Binder α) (f : α → Binder β) (b d : Bindings) (y : β) :
    (m >>= f).Yields b y d ↔ ∃ a c, m.Yields b a c ∧ (f a).Yields c y d := by
  unfold Yields
  rw [outcome_bind]
  generalize m.outcome b = r
  constructor
  · intro h
    obtain ⟨e | a, c⟩ := r
    · cases h
    · exact ⟨a, c, rfl, h⟩
  · rintro ⟨a, c, rfl, h⟩
    exact h

theorem outcome_ok (m : Binder α) (b : Bindings) (f : α → Bindings → β) (y : β)
    (r : Except CompileError β) (ho : ∀ a c, m.outcome b = (.ok a, c) → r = .ok (f a c))
    (he : ∀ e c, m.outcome b = (.error e, c) → r = .error e) :
    r = .ok y ↔ ∃ a c, m.Yields b a c ∧ y = f a c := by
  constructor
  · intro h
    cases hm : m.outcome b with
    | mk x c =>
      cases x with
      | error e =>
        rw [he e c hm] at h
        cases h
      | ok a =>
        rw [ho a c hm] at h
        exact ⟨a, c, hm, (Except.ok.inj h).symm⟩
  · intro h
    obtain ⟨a, c, hm, rfl⟩ := h
    exact ho a c hm

theorem outcome_error (m : Binder α) (b : Bindings) (f : α → Bindings → β)
    (r : Except CompileError β) (ho : ∀ a c, m.outcome b = (.ok a, c) → r = .ok (f a c))
    (he : ∀ e c, m.outcome b = (.error e, c) → r = .error e) (e : CompileError) :
    r = .error e ↔ (m.outcome b).1 = .error e := by
  cases hm : m.outcome b with
  | mk x c =>
    cases x with
    | error d =>
      rw [he d c hm]
      simp
    | ok a =>
      rw [ho a c hm]
      simp

theorem except_bind {ε α β : Type} (x : Except ε α) (f : α → Except ε β) (y : β) :
    x >>= f = .ok y ↔ ∃ a, x = .ok a ∧ f a = .ok y := by
  cases x with
  | error e => simp [bind, Except.bind]
  | ok a => simp [bind, Except.bind]

theorem yields_fresh (stem : String) (v : Value) (b c : Bindings) (p : Placeholder) :
    (fresh stem v).Yields b p c ↔ p = (b.bind stem v).1 ∧ c = (b.bind stem v).2 := by
  constructor
  · intro h
    cases h
    exact ⟨rfl, rfl⟩
  · rintro ⟨rfl, rfl⟩
    rfl

theorem yields_named (name : String) (v : Value) (b c : Bindings) (p : Placeholder) :
    (named name v).Yields b p c ↔ p = (b.bindNamed name v).1 ∧ c = (b.bindNamed name v).2 := by
  constructor
  · intro h
    cases h
    exact ⟨rfl, rfl⟩
  · rintro ⟨rfl, rfl⟩
    rfl

theorem yields_check (r : Except CompileError α) (a : α) (b c : Bindings) :
    (check r).Yields b a c ↔ r = .ok a ∧ c = b := by
  cases r with
  | error e =>
    constructor
    · intro h
      cases h
    · rintro ⟨h, _⟩
      cases h
  | ok x =>
    change (pure x : Binder α).Yields b a c ↔ _
    rw [yields_pure]
    simp [eq_comm]

theorem yields_refuse (e : CompileError) (a : α) (b c : Bindings) :
    ¬ (refuse e : Binder α).Yields b a c := by
  intro h
  cases h

theorem yields_get (a b c : Bindings) :
    (get : Binder Bindings).Yields b a c ↔ a = b ∧ c = b := by
  constructor
  · intro h
    cases h
    exact ⟨rfl, rfl⟩
  · rintro ⟨rfl, rfl⟩
    rfl

end Binder

namespace Params

/-- The names of the parameters with their types. -/
def signature (params : Params) : List (String × ParamType) :=
  params.map fun (name, v) => (name, v.type)

end Params

theorem get_set (params : Params) (name : String) (v : Value) :
    (params.set name v).get? name = some v := by
  unfold Params.get?
  induction params with
  | nil => simp [Params.set]
  | cons entry rest ih =>
    obtain ⟨k, w⟩ := entry
    by_cases hk : name = k
    · simp [Params.set, hk]
    · by_cases hl : name < k
      · simp [Params.set, hk, hl]
      · have hb : (name == k) = false := by simpa using hk
        rw [Params.set, if_neg hk, if_neg hl, List.lookup_cons, hb]
        exact ih

theorem get_set_other (params : Params) (name other : String) (v : Value) (h : other ≠ name) :
    (params.set name v).get? other = params.get? other := by
  unfold Params.get?
  have hb : (other == name) = false := by simpa using h
  induction params with
  | nil => simp [Params.set, List.lookup_cons, hb]
  | cons entry rest ih =>
    obtain ⟨k, w⟩ := entry
    by_cases hk : name = k
    · subst hk
      simp [Params.set, List.lookup_cons, hb]
    · by_cases hl : name < k
      · simp [Params.set, hk, hl, List.lookup_cons, hb]
      · rw [Params.set, if_neg hk, if_neg hl, List.lookup_cons, List.lookup_cons, ih]

theorem signature_set (ps qs : Params) (name : String) (v w : Value)
    (h : ps.signature = qs.signature) (hv : v.type = w.type) :
    (ps.set name v).signature = (qs.set name w).signature := by
  induction ps generalizing qs with
  | nil =>
    obtain rfl : qs = [] := by simpa [Params.signature] using h
    simp [Params.set, Params.signature, hv]
  | cons entry ps ih =>
    cases qs with
    | nil => simp [Params.signature] at h
    | cons other qs =>
      obtain ⟨k, x⟩ := entry
      obtain ⟨l, y⟩ := other
      simp only [Params.signature, List.map_cons, List.cons.injEq, Prod.mk.injEq] at h
      obtain ⟨⟨rfl, hx⟩, ht⟩ := h
      by_cases hk : name = k
      · simpa [Params.set, hk, Params.signature, hv] using ht
      · by_cases hl : name < k
        · simpa [Params.set, hk, hl, Params.signature, hv, hx] using ht
        · have hr := ih qs ht
          simpa [Params.set, hk, hl, Params.signature, hx] using hr

namespace Bindings

def bindAll (b : Bindings) (literals : List (String × Value)) : Bindings :=
  literals.foldl (fun b (stem, v) => (b.bind stem v).2) b

theorem bind_all_append (b : Bindings) (us vs : List (String × Value)) :
    b.bindAll (us ++ vs) = (b.bindAll us).bindAll vs :=
  List.foldl_append

theorem bind_all_counter (b : Bindings) (vs : List (String × Value)) :
    (b.bindAll vs).counter = b.counter + vs.length := by
  induction vs generalizing b with
  | nil => rfl
  | cons v vs ih =>
    have ht := ih (b.bind v.1 v.2).2
    have hc : (b.bind v.1 v.2).2.counter = b.counter + 1 := rfl
    rw [hc] at ht
    rw [List.length_cons]
    exact ht.trans (by omega)

theorem bind_all_date (b : Bindings) (vs : List (String × Value)) :
    (b.bindAll vs).dateTo = b.dateTo := by
  induction vs generalizing b with
  | nil => rfl
  | cons v vs ih => exact ih (b.bind v.1 v.2).2

theorem fresh_name_chars (stem : String) (n : Nat) :
    (freshName stem n).toList = stem.toList ++ '_' :: Nat.toDigits 10 n := by
  simp [freshName, Text.numeral]

theorem fresh_name_ne (stem name : String) (n : Nat)
    (h : name.toList.getLast?.any Char.isDigit = false) : name ≠ freshName stem n := by
  rintro rfl
  obtain ⟨d, hd⟩ : ∃ d, (Nat.toDigits 10 n).getLast? = some d :=
    Option.isSome_iff_exists.mp (by simp [Nat.toDigits_ne_nil])
  have hl : (freshName stem n).toList.getLast? = some d := by
    rw [fresh_name_chars, List.getLast?_append, List.getLast?_cons, hd]
    simp
  have hdigit : d.isDigit = true :=
    Nat.isDigit_of_mem_toDigits (by omega) (by omega) (List.mem_of_getLast? hd)
  rw [hl, Option.any_some, hdigit] at h
  cases h

theorem bind_all_get (b : Bindings) (name : String) (vs : List (String × Value))
    (h : name.toList.getLast?.any Char.isDigit = false) :
    (b.bindAll vs).params.get? name = b.params.get? name := by
  induction vs generalizing b with
  | nil => rfl
  | cons v vs ih =>
    have hn : name ≠ freshName v.1 b.counter := fresh_name_ne v.1 name b.counter h
    have hb : (b.bind v.1 v.2).2.params = b.params.set (freshName v.1 b.counter) v.2 := rfl
    have ht := ih (b.bind v.1 v.2).2
    rw [hb, get_set_other _ _ _ _ hn] at ht
    exact ht

end Bindings

end CohortQuery
