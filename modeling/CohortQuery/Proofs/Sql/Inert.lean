import CohortQuery.Proofs.Sql.Edit
import Mathlib.Data.List.Infix

/-!
# Parts without places

The words of a statement and the names of properties have neither a placeholder nor the time of
the store, nor a beginning or an end of one. So no place lies across the end of such a part.
-/

set_option autoImplicit false

namespace CohortQuery.Sql

open Edit (Turns Keeps TurnsAll)

/-- The text of `Moment.now`. -/
def nowChars : List Char :=
  ['n', 'o', 'w', '6', '4', '(', '3', ')']

/-- No end of the text begins with the time of the store, and none is a beginning of it. -/
inductive Calm : List Char → Prop where
  | nil : Calm []
  | cons {c : Char} {cs : List Char} (hn : ¬ nowChars <+: c :: cs) (hc : ¬ c :: cs <+: nowChars)
      (h : Calm cs) : Calm (c :: cs)

theorem calm_cons (c : Char) (cs : List Char) :
    Calm (c :: cs) ↔ (¬ nowChars <+: c :: cs ∧ ¬ c :: cs <+: nowChars) ∧ Calm cs :=
  ⟨fun | .cons hn hc h => ⟨⟨hn, hc⟩, h⟩, fun h => .cons h.1.1 h.1.2 h.2⟩

def calmDecidable : (cs : List Char) → Decidable (Calm cs)
  | [] => .isTrue .nil
  | c :: cs =>
    have := calmDecidable cs
    decidable_of_iff' _ (calm_cons c cs)

instance (cs : List Char) : Decidable (Calm cs) :=
  calmDecidable cs

instance (c : Char) (s : String) : Decidable (Lacks c s) :=
  inferInstanceAs (Decidable (c ∉ s.toList))

structure Inert (s : String) : Prop where
  braceless : Braceless s
  calm : Calm s.toList

instance (s : String) : Decidable (Inert s) :=
  decidable_of_iff (Braceless s ∧ Calm s.toList)
    ⟨fun h => ⟨h.1, h.2⟩, fun h => ⟨h.braceless, h.calm⟩⟩

theorem calm_known {cs : List Char} (h : Calm cs) : Calm (String.ofList cs).toList := by
  rwa [String.toList_ofList]

theorem Inert.known {cs : List Char} (h : '\x7b' ∉ cs ∧ Calm cs) : Inert (String.ofList cs) :=
  ⟨lacks_chars cs h.1, calm_known h.2⟩

theorem calm_append {us vs : List Char} (hu : Calm us) (hv : Calm vs) : Calm (us ++ vs) := by
  induction hu with
  | nil => exact hv
  | @cons c us hn hc _ ih =>
    refine .cons ?_ ?_ ih
    · intro h
      rcases List.prefix_or_prefix_of_prefix h (List.prefix_append (c :: us) vs) with h | h
      · exact hn h
      · exact hc h
    · exact fun h => hc ((List.prefix_append (c :: us) vs).trans h)

theorem calm_before {us vs : List Char} {x d : Char} (hp : x ∈ nowChars) (hu : x ∉ us)
    (hd : d ∉ nowChars) (hv : Calm (d :: vs)) : Calm (us ++ d :: vs) := by
  induction us with
  | nil => exact hv
  | cons c us ih =>
    refine .cons ?_ ?_ (ih fun h => hu (List.mem_cons_of_mem c h))
    · intro h
      change nowChars <+: c :: us ++ d :: vs at h
      rcases List.prefix_or_prefix_of_prefix h (List.prefix_append (c :: us) (d :: vs)) with h' | h'
      · exact hu (h'.subset hp)
      · obtain ⟨ws, hw⟩ := h'
        rw [← hw, List.prefix_append_right_inj] at h
        cases ws with
        | nil =>
          rw [List.append_nil] at hw
          exact hu (hw ▸ hp)
        | cons w ws =>
          obtain ⟨rfl, _⟩ := List.cons_prefix_cons.mp h
          exact hd (hw ▸ List.mem_append_right (c :: us) List.mem_cons_self)
    · exact fun h => hd (h.subset (List.mem_append_right (c :: us) List.mem_cons_self))

theorem calm_lacking {cs : List Char} {x : Char} (hp : x ∈ nowChars) (hx : x ∉ cs)
    (hd : cs.getLast?.all (· ∉ nowChars) = true) : Calm cs := by
  rcases List.eq_nil_or_concat' cs with rfl | ⟨us, d, rfl⟩
  · exact .nil
  · have hn : d ∉ nowChars := by simpa using hd
    have hl : Calm [d] := .cons (fun h => by simpa [nowChars] using h.length_le)
      (fun h => hn (h.subset List.mem_cons_self)) .nil
    exact calm_before hp (fun h => hx (List.mem_append_left _ h)) hn hl

theorem calm_text {s t : String} (hs : Calm s.toList) (ht : Calm t.toList) :
    Calm (s ++ t).toList := by
  rw [String.toList_append]
  exact calm_append hs ht

theorem inert_append {s t : String} (hs : Inert s) (ht : Inert t) : Inert (s ++ t) :=
  ⟨hs.braceless.append ht.braceless, calm_text hs.calm ht.calm⟩

theorem inert_name (n : PropertyName) {t : String} {cs : List Char} (ht : Inert t)
    (hq : t.toList = '\'' :: cs) : Inert (n.text ++ t) := by
  have free (c : Char) (hc : PropertyName.continuesName c = false) : Lacks c n.text := by
    intro hm
    rw [safe_chars n c hm] at hc
    cases hc
  refine ⟨(free '\x7b' (by decide)).append ht.braceless, ?_⟩
  rw [String.toList_append, hq]
  have hp : '(' ∈ nowChars := by decide
  exact calm_before hp (free '(' (by decide)) (by decide) (hq ▸ ht.calm)

theorem lookup_inert (l : Lookup) {s t : String} {cs : List Char} (hs : Inert s) (ht : Inert t)
    (hq : t.toList = '\'' :: cs) :
    Inert (s ++ l.bag.column ++ ", '" ++ l.key.text ++ t) := by
  have hb : Inert l.bag.column := by
    cases l.bag <;> exact .known (by decide)
  have hm : Inert ", '" := .known (by decide)
  have h := inert_append (inert_append (inert_append hs hb) hm) (inert_name l.key ht hq)
  rwa [← String.append_assoc] at h

theorem text_inert (l : Lookup) : Inert l.text :=
  lookup_inert l (.known (by decide)) (.known (by decide)) String.toList_ofList

theorem raw_inert (l : Lookup) : Inert l.raw :=
  lookup_inert l (.known (by decide)) (.known (by decide)) String.toList_ofList

theorem number_inert (l : Lookup) : Inert l.number :=
  inert_append (inert_append (lookup_inert l (.known (by decide)) (.known (by decide))
    String.toList_ofList) (text_inert l)) (.known (by decide))

end CohortQuery.Sql
