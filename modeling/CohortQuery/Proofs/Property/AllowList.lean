import CohortQuery.Property.AllowList
import CohortQuery.Proofs.Text.Sorted

/-!
# What an allow-list admits

A list admits the safe names among those that it was ever offered, and it makes no difference
when or how often they were offered.
-/

set_option autoImplicit false

namespace CohortQuery

namespace PropertyName

def Begins (c : Char) : Prop :=
  c.isAlpha = true ∨ c = '_' ∨ c = '$'

def Follows (c : Char) : Prop :=
  c.isAlpha = true ∨ c.isDigit = true ∨ c ∈ ['_', '$', '.', ':', '-']

/-- One to two hundred ASCII characters, of which the first may begin a name and the others may
follow in one. -/
structure Safe (s : String) : Prop where
  size : 1 ≤ s.length ∧ s.length ≤ 200
  ascii : ∀ c ∈ s.toList, c.toNat < 128
  first : ∀ c ∈ s.toList.head?, Begins c
  others : ∀ c ∈ s.toList.tail, Follows c

theorem letter_alpha (c : Char) : isAsciiLetter c = true ↔ c.isAlpha = true := by
  have lower : ('a' ≤ c && c ≤ 'z') = c.isLower := rfl
  have upper : ('A' ≤ c && c ≤ 'Z') = c.isUpper := (Bool.decide_and _ _).symm
  rw [isAsciiLetter, lower, upper, Bool.or_comm]
  exact Iff.rfl

theorem starts_begins (c : Char) : startsName c = true ↔ Begins c := by
  simp [startsName, Begins, letter_alpha, or_assoc]

theorem continues_follows (c : Char) : continuesName c = true ↔ Follows c := by
  have hd : ('0' ≤ c && c ≤ '9') = c.isDigit := rfl
  rw [continuesName, hd]
  simp only [Bool.or_eq_true, starts_begins, Begins, Follows, decide_eq_true_eq, List.mem_cons,
    List.not_mem_nil, or_false]
  tauto

theorem begins_follows {c : Char} (h : Begins c) : Follows c := by
  rcases h with h | rfl | rfl
  · exact .inl h
  · exact .inr (.inr (by decide))
  · exact .inr (.inr (by decide))

theorem letter_ascii {c : Char} (h : isAsciiLetter c = true) : c.toNat < 128 := by
  rcases Bool.or_eq_true_iff.mp h with h | h
  · have hl : c ≤ 'z' := of_decide_eq_true (Bool.and_eq_true_iff.mp h).2
    exact lt_of_le_of_lt hl (by decide : 'z'.toNat < 128)
  · have hl : c ≤ 'Z' := of_decide_eq_true (Bool.and_eq_true_iff.mp h).2
    exact lt_of_le_of_lt hl (by decide : 'Z'.toNat < 128)

theorem follows_ascii {c : Char} (h : Follows c) : c.toNat < 128 := by
  rcases h with h | h | h
  · exact letter_ascii ((letter_alpha c).mpr h)
  · exact lt_of_le_of_lt (Char.isDigit_iff_toNat.mp h).2 (by decide)
  · simp only [List.mem_cons, List.not_mem_nil, or_false] at h
    rcases h with rfl | rfl | rfl | rfl | rfl <;> decide

theorem safe_iff (s : String) : isSafe s.toList = true ↔ Safe s := by
  have hl : s.length = s.toList.length := String.length_toList.symm
  cases hs : s.toList with
  | nil =>
    rw [hs, List.length_nil] at hl
    constructor
    · intro h
      cases h
    · intro h
      have hp := h.size.1
      omega
  | cons c rest =>
    rw [hs, List.length_cons] at hl
    simp only [isSafe, Bool.and_eq_true, List.all_eq_true, decide_eq_true_eq, starts_begins,
      continues_follows]
    constructor
    · rintro ⟨⟨hb, hf⟩, hn⟩
      refine ⟨by omega, ?_, ?_, ?_⟩
      · rw [hs, List.forall_mem_cons]
        exact ⟨follows_ascii (begins_follows hb), fun d hd => follows_ascii (hf d hd)⟩
      · rw [hs]
        simpa using hb
      · rw [hs]
        exact hf
    · rintro ⟨hn, _, hb, hf⟩
      rw [hs] at hb hf
      exact ⟨⟨hb c rfl, hf⟩, by omega⟩

instance : DecidablePred Safe := fun s =>
  decidable_of_iff _ (safe_iff s)

end PropertyName

open PropertyName (Safe)

namespace AllowList

/-- The list has the safe names among those offered, in order. -/
structure Admits (l : AllowList) (offered : List String) : Prop where
  sorted : Text.Sorted l.toTexts
  names : ∀ s, s ∈ l.toTexts ↔ s ∈ offered ∧ Safe s

theorem insert_name_texts (n : PropertyName) (names : List PropertyName) :
    (insertName n names).map PropertyName.text =
      Text.insertSorted n.text (names.map PropertyName.text) := by
  induction names with
  | nil => rfl
  | cons m names ih =>
    rw [insertName, List.map_cons, Text.insertSorted, ← ih]
    split
    next => rfl
    next => split <;> rfl

theorem insert_safe (l : AllowList) {s : String} (h : Safe s) :
    (l.insert s).1 = true ∧ (l.insert s).2.toTexts = Text.insertSorted s l.toTexts := by
  have hs := (PropertyName.safe_iff s).mpr h
  rw [insert, PropertyName.ofText?, dif_pos hs]
  exact ⟨rfl, insert_name_texts ⟨s, hs⟩ l.names⟩

theorem insert_refuses (l : AllowList) {s : String} (h : ¬ Safe s) : l.insert s = (false, l) := by
  rw [insert, PropertyName.ofText?, dif_neg (mt (PropertyName.safe_iff s).mp h)]

theorem insert_told (l : AllowList) (s : String) : (l.insert s).1 = true ↔ Safe s := by
  by_cases h : Safe s
  · simp [insert_safe l h, h]
  · simp [insert_refuses l h, h]

theorem empty_admits : empty.Admits [] :=
  ⟨List.Pairwise.nil, by simp [empty, toTexts]⟩

theorem insert_admits {l : AllowList} {offered : List String} (h : l.Admits offered)
    (s : String) : (l.insert s).2.Admits (offered ++ [s]) := by
  by_cases hs : Safe s
  · have ht := (insert_safe l hs).2
    refine ⟨?_, fun t => ?_⟩
    · rw [ht]
      exact Text.insert_sorted s h.sorted
    · rw [ht, Text.mem_insert_sorted, h.names, List.mem_append, List.mem_singleton]
      constructor
      · rintro (rfl | ⟨ho, ht⟩)
        · exact ⟨.inr rfl, hs⟩
        · exact ⟨.inl ho, ht⟩
      · rintro ⟨ho | rfl, ht⟩
        · exact .inr ⟨ho, ht⟩
        · exact .inl rfl
  · rw [insert_refuses l hs]
    refine ⟨h.sorted, fun t => ?_⟩
    rw [h.names, List.mem_append, List.mem_singleton]
    constructor
    · exact fun ⟨ho, ht⟩ => ⟨.inl ho, ht⟩
    · rintro ⟨ho | rfl, ht⟩
      · exact ⟨ho, ht⟩
      · exact absurd ht hs

theorem insert_all_admits {l : AllowList} {before : List String} (h : l.Admits before)
    (names : List String) : (l.insertAll names).Admits (before ++ names) := by
  induction names generalizing l before with
  | nil =>
    rw [List.append_nil]
    exact h
  | cons s names ih =>
    rw [List.append_cons]
    exact ih (insert_admits h s)

theorem built_admits (initial later : List String) :
    ((ofNames initial).insertAll later).Admits (initial ++ later) :=
  insert_all_admits (insert_all_admits empty_admits initial) later

theorem texts_injective {l m : AllowList} (h : l.toTexts = m.toTexts) : l = m := by
  have hi : Function.Injective PropertyName.text := by
    rintro ⟨s, _⟩ ⟨t, _⟩ rfl
    rfl
  obtain ⟨ls⟩ := l
  obtain ⟨ms⟩ := m
  exact congrArg AllowList.mk (List.map_injective_iff.mpr hi h)

theorem admits_same {l m : AllowList} {offered other : List String} (hl : l.Admits offered)
    (hm : m.Admits other) (h : ∀ s, s ∈ offered ↔ s ∈ other) : l = m := by
  refine texts_injective (Text.sorted_same hl.sorted hm.sorted fun s => ?_)
  rw [hl.names, hm.names, h]

theorem admits_size {l : AllowList} {offered : List String} (h : l.Admits offered) :
    l.size = (offered.toFinset.filter Safe).card := by
  have ht : l.toTexts.toFinset = offered.toFinset.filter Safe := by
    ext s
    simp [h.names]
  have hl : l.size = l.toTexts.length := (List.length_map _).symm
  rw [hl, Text.sorted_card h.sorted, ht]

theorem contains_iff (l : AllowList) (s : String) : l.contains s = true ↔ s ∈ l.toTexts :=
  List.contains_iff_mem

theorem check_refuses (l : AllowList) {s : String} (h : ¬ Safe s) :
    l.check s = .error (.invalidPropertyName s) := by
  rw [check, PropertyName.ofText?, dif_neg (mt (PropertyName.safe_iff s).mp h)]

theorem check_safe (l : AllowList) {s : String} (h : Safe s) :
    l.check s = if l.contains s then .ok ⟨s, (PropertyName.safe_iff s).mpr h⟩
      else .error (.unknownProperty s) := by
  rw [check, PropertyName.ofText?, dif_pos]

theorem check_invalid (l : AllowList) (s : String) :
    l.check s = .error (.invalidPropertyName s) ↔ ¬ Safe s := by
  by_cases h : Safe s
  · rw [check_safe l h]
    split <;> simp [h]
  · simp [check_refuses l h, h]

theorem check_unknown (l : AllowList) (s : String) :
    l.check s = .error (.unknownProperty s) ↔ Safe s ∧ s ∉ l.toTexts := by
  rw [← contains_iff]
  by_cases h : Safe s
  · rw [check_safe l h]
    split
    next hc => simp [hc]
    next hc => simp [h, hc]
  · simp [check_refuses l h, h]

theorem check_passes (l : AllowList) (s : String) :
    (∃ n, n.text = s ∧ l.check s = .ok n) ↔ Safe s ∧ s ∈ l.toTexts := by
  rw [← contains_iff]
  by_cases h : Safe s
  · rw [check_safe l h]
    split
    next hc => simp [h, hc]
    next hc => simp [hc]
  · simp [check_refuses l h, h]

/-- A list has the safe names that it was offered and no others, and it is the same in whatever
order they come. A safe name is taken even if it is there; only one that is there passes the
check. -/
theorem safe_names_listed (initial later : List String) :
    let l := (ofNames initial).insertAll later
    let offered := initial ++ later
    (∀ s ∈ l.toTexts, Safe s) ∧
    (∀ s, s ∈ l.toTexts ↔ s ∈ offered ∧ Safe s) ∧
    (∀ s, (l.insert s).1 = true ↔ Safe s) ∧
    l.size = (offered.toFinset.filter Safe).card ∧
    (∀ first second, (first ++ second).Perm offered → (ofNames first).insertAll second = l) ∧
    ∀ s, (l.contains s = true ↔ s ∈ l.toTexts) ∧
      ((∃ n, n.text = s ∧ l.check s = .ok n) ↔ l.contains s = true) ∧
      (l.check s = .error (.invalidPropertyName s) ↔ ¬ Safe s) ∧
      (l.check s = .error (.unknownProperty s) ↔ Safe s ∧ s ∉ offered) := by
  intro l offered
  have h : l.Admits offered := built_admits initial later
  refine ⟨fun s hs => ((h.names s).mp hs).2, h.names, insert_told l, admits_size h, ?_, ?_⟩
  · intro first second hp
    exact admits_same (built_admits first second) h fun s => hp.mem_iff
  · intro s
    refine ⟨contains_iff l s, ?_, check_invalid l s, ?_⟩
    · rw [check_passes, contains_iff, h.names]
      exact ⟨And.right, fun hs => ⟨hs.2, hs⟩⟩
    · rw [check_unknown, h.names]
      exact and_congr_right fun hs => by simp [hs]

theorem offers_mixed :
    let initial := ["plan", "bad'name", "$os"]
    let later := ["plan", "näme", "utm.source\n", "utm.source"]
    let l := (ofNames initial).insertAll later
    (later ++ initial).Perm (initial ++ later) ∧ (ofNames later).insertAll initial = l ∧
    l.toTexts = ["$os", "plan", "utm.source"] ∧ (l.insert "plan").1 = true ∧
    l.check "utm.source\n" = .error (.invalidPropertyName "utm.source\n") ∧
    l.check "email" = .error (.unknownProperty "email") := by
  intro initial later l
  have hp : (later ++ initial).Perm (initial ++ later) := by decide
  obtain ⟨_, _, taken, _, same, checked⟩ := safe_names_listed initial later
  refine ⟨hp, same later initial hp, by decide, (taken "plan").mpr (by decide), ?_, ?_⟩
  · exact (checked "utm.source\n").2.2.1.mpr (by decide)
  · exact (checked "email").2.2.2.mpr (by decide)

end AllowList

end CohortQuery
