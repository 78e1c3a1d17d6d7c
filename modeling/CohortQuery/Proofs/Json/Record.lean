import CohortQuery.Json.Decode
import CohortQuery.Proofs.Binder
import CohortQuery.Proofs.Json.Distinct
import Mathlib.Data.List.Forall2

/-!
# What typed reading accepts

The forms in which data are written as values, said without reading them, and that each decoder
takes the values of its form and no others. A record is read from its fields one by one,
wherever they stand.
-/

set_option autoImplicit false

namespace CohortQuery.Json

/-- Which values are written for which data. -/
abbrev Form (α : Type) := Json → α → Prop

namespace Form

variable {α : Type}

def text : Form String :=
  fun v s => v = .text s

def flag : Form Bool :=
  fun v b => v = .bool b

def word : Form Nat :=
  fun v n => v = .int n ∧ n < UInt32.size

/-- Any value; `null` is written for none. -/
def operand : Form (Option Json) :=
  fun v o => v = .null ∧ o = none ∨ v ≠ .null ∧ o = some v

/-- A name, alone or as the key of `null` in an object of its own. -/
def named (name : α → String) : Form α :=
  fun v a => v = .text (name a) ∨ v = .object [(name a, .null)]

def list (f : Form α) : Form (List α) :=
  fun v as => ∃ items, v = .list items ∧ List.Forall₂ f items as

def Required (f : Form α) (fields : Fields) (name : String) (a : α) : Prop :=
  ∃ v, (name, v) ∈ fields ∧ f v a

/-- A field that may be left out, and what is meant then. -/
def Defaulted (f : Form α) (fields : Fields) (name : String) (absent a : α) : Prop :=
  f.Required fields name a ∨ (∀ v, (name, v) ∉ fields) ∧ a = absent

end Form

section

variable {α β : Type}

theorem text_decode (v : Json) (s : String) : Decode.text v = .ok s ↔ Form.text v s := by
  cases v <;> simp [Decode.text, Decode.mistyped, Form.text]

theorem flag_decode (v : Json) (b : Bool) : Decode.bool v = .ok b ↔ Form.flag v b := by
  cases v <;> simp [Decode.bool, Decode.mistyped, Form.flag]

theorem operand_decode (v : Json) (o : Option Json) :
    Decode.operand v = .ok o ↔ Form.operand v o := by
  cases v <;> simp [Decode.operand, Form.operand, eq_comm]

theorem word_decode (v : Json) (n : Nat) : Decode.word32 v = .ok n ↔ Form.word v n := by
  match v with
  | .number (.integer i) =>
    have hp : ((Decimal.twoTo 32 : Nat) : Int) = UInt32.size := rfl
    have hi : Json.number (.integer i) = .int n ↔ i = n := by simp [Json.int]
    rw [Decode.word32, Form.word, hi, hp]
    split
    next h =>
      rw [Except.ok.injEq]
      omega
    next h =>
      refine iff_of_false (by simp) ?_
      rintro ⟨rfl, hn⟩
      exact h (by omega)
  | .number (.real _) | .null | .bool _ | .text _ | .list _ | .object _ =>
    simp [Decode.word32, Decode.mistyped, Form.word, Json.int]

theorem all_decode {ε : Type} (d : α → Except ε β) (items : List α) (as : List β) :
    items.mapM d = .ok as ↔ List.Forall₂ (fun v a => d v = .ok a) items as := by
  induction items generalizing as with
  | nil =>
    rw [List.mapM_nil, List.forall₂_nil_left_iff]
    exact (Except.ok.injEq _ _).to_iff.trans eq_comm
  | cons v items ih =>
    rw [List.mapM_cons, Binder.except_bind, List.forall₂_cons_left_iff]
    simp only [Binder.except_bind, ih]
    constructor
    · rintro ⟨a, ha, bs, hb, he⟩
      exact ⟨a, bs, ha, hb, (Except.ok.inj he).symm⟩
    · rintro ⟨a, bs, ha, hb, rfl⟩
      exact ⟨a, ha, bs, hb, rfl⟩

theorem forall₂_iff {R S : α → β → Prop} {as : List α} (h : ∀ a ∈ as, ∀ b, R a b ↔ S a b)
    (bs : List β) : List.Forall₂ R as bs ↔ List.Forall₂ S as bs := by
  induction as generalizing bs with
  | nil => simp
  | cons a as ih =>
    obtain ⟨ha, ht⟩ := List.forall_mem_cons.mp h
    simp only [List.forall₂_cons_left_iff, ha, ih ht]

theorem forall₂_left {R : α → β → Prop} {as : List α} {bs : List β} (h : List.Forall₂ R as bs) :
    ∀ a ∈ as, ∃ b, R a b := by
  induction h with
  | nil => simp
  | cons hr _ ih => exact List.forall_mem_cons.mpr ⟨⟨_, hr⟩, ih⟩

theorem forall₂_and {R : α → β → Prop} {P : β → Prop} (as : List α) (bs : List β) :
    List.Forall₂ (fun a b => R a b ∧ P b) as bs ↔ List.Forall₂ R as bs ∧ ∀ b ∈ bs, P b := by
  induction as generalizing bs with
  | nil => cases bs <;> simp
  | cons a as ih => cases bs <;> simp [ih, and_and_and_comm]

theorem forall₂_replace {A : α → α → Prop} {R : α → β → Prop} {as bs : List α} {cs : List β}
    (h : List.Forall₂ A as bs)
    (hr : ∀ a ∈ as, ∀ b ∈ bs, ∀ c ∈ cs, A a b → R a c → R b c)
    (hc : List.Forall₂ R as cs) : List.Forall₂ R bs cs := by
  induction h generalizing cs with
  | nil => exact hc
  | cons hab _ ih =>
    cases hc with
    | cons hac ht =>
      refine .cons (hr _ (by simp) _ (by simp) _ (by simp) hab hac) (ih ?_ ht)
      exact fun a ha b hb c hc => hr a (by simp [ha]) b (by simp [hb]) c (by simp [hc])

theorem list_decode {d : Decoder α} {f : Form α} {v : Json}
    (h : ∀ items, v = .list items → ∀ w ∈ items, ∀ a, d w = .ok a ↔ f w a) (as : List α) :
    Decode.list d v = .ok as ↔ f.list v as := by
  match v with
  | .list items =>
    rw [Decode.list, all_decode, forall₂_iff (h items rfl), Form.list]
    simp
  | .null | .bool _ | .number _ | .text _ | .object _ =>
    simp [Decode.list, Decode.mistyped, Form.list]

theorem named_decode {known : List String} {named : String → Option α} {name : α → String}
    (h : ∀ s a, named s = some a ↔ s = name a) (v : Json) (a : α) :
    Decode.variant known named v = .ok a ↔ Form.named name v a := by
  have hp (s : String) : Decode.variant.pick known named s = .ok a ↔ s = name a := by
    rw [Decode.variant.pick, ← h]
    cases named s <;> simp
  have hn (w : Json) (u : Unit) : Decode.null w = .ok u ↔ w = .null := by
    cases w <;> simp [Decode.null, Decode.mistyped]
  match v with
  | .text s => simp [Decode.variant, hp, Form.named]
  | .object [(s, w)] =>
    rw [Decode.variant, Binder.except_bind]
    simp only [Binder.except_bind, hn, Form.named]
    constructor
    · rintro ⟨b, hb, _, rfl, he⟩
      obtain rfl := Except.ok.inj he
      exact .inr (by rw [(hp s).mp hb])
    · rintro (he | he)
      · cases he
      · obtain ⟨rfl, rfl⟩ : s = name a ∧ w = .null := by simpa using he
        exact ⟨a, (hp _).mpr rfl, (), rfl, rfl⟩
  | .object [] | .object (_ :: _ :: _) | .null | .bool _ | .number _ | .list _ =>
    simp [Decode.variant, Decode.mistyped, Form.named]

theorem record_object (r : Record α) (name : String) (fields : Fields) (a : α) :
    r.decode name (.object fields) = .ok a ↔
      (∀ f ∈ fields, r.flaw? f.1 f.2 = none) ∧ r.ofFields fields = .ok a := by
  rw [Record.decode]
  split
  next m hm =>
    refine iff_of_false (by simp) fun h => ?_
    rw [List.findSome?_eq_none_iff.mpr h.1] at hm
    cases hm
  next hm => exact ⟨fun h => ⟨List.findSome?_eq_none_iff.mp hm, h⟩, fun h => h.2⟩

theorem record_of (name : String) (a b : α) (fields : Fields) :
    (Record.of a).decode name (.object fields) = .ok b ↔ b = a := by
  rw [record_object]
  constructor
  · rintro ⟨_, h⟩
    exact (Except.ok.inj h).symm
  · rintro rfl
    exact ⟨fun _ _ => rfl, rfl⟩

theorem flaw_none (f : RecordField α) (v : Json) : f.flaw? v = none ↔ ∃ a, f.decode v = .ok a := by
  unfold RecordField.flaw?
  cases f.decode v <;> simp

theorem field_decode {f : RecordField α} {form : Form α} {fields : Fields}
    (hn : (fields.map Prod.fst).Nodup)
    (hd : ∀ v, (f.name, v) ∈ fields → ∀ a, f.decode v = .ok a ↔ form v a) (a : α) :
    (∀ v, (f.name, v) ∈ fields → f.flaw? v = none) ∧ f.ofFields fields = .ok a ↔
      form.Required fields f.name a ∨ (∀ v, (f.name, v) ∉ fields) ∧ f.absent = some a := by
  unfold RecordField.ofFields Form.Required
  cases hg : get? fields f.name with
  | none =>
    have ha := (get_absent fields f.name).mp hg
    cases f.absent <;> simp [ha]
  | some v =>
    have hm := (get_field hn f.name v).mp hg
    have hv (w : Json) (hw : (f.name, w) ∈ fields) : w = v :=
      Option.some.inj (((get_field hn f.name w).mpr hw).symm.trans hg)
    have ho : ¬∀ w, (f.name, w) ∉ fields := fun h => h v hm
    simp only [ho, false_and, or_false, hd v hm]
    constructor
    · exact fun h => ⟨v, hm, h.2⟩
    · rintro ⟨w, hw, hf⟩
      obtain rfl := hv w hw
      refine ⟨fun u hu => ?_, hf⟩
      obtain rfl := hv u hu
      exact (flaw_none f u).mpr ⟨a, (hd u hu a).mpr hf⟩

theorem record_field {r : Record (α → β)} {f : RecordField α} {form : Form α} {name : String}
    {fields : Fields} {P : (α → β) → Prop} (hn : (fields.map Prod.fst).Nodup)
    (hr : ∀ v, r.flaw? f.name v = none)
    (hd : ∀ v, (f.name, v) ∈ fields → ∀ a, f.decode v = .ok a ↔ form v a)
    (hp : ∀ g, r.decode name (.object fields) = .ok g ↔ P g) (b : β) :
    (r.field f).decode name (.object fields) = .ok b ↔ ∃ g a, P g ∧
      (form.Required fields f.name a ∨ (∀ v, (f.name, v) ∉ fields) ∧ f.absent = some a) ∧
      b = g a := by
  have hs : (∀ e ∈ fields, (r.field f).flaw? e.1 e.2 = none) ↔
      (∀ e ∈ fields, r.flaw? e.1 e.2 = none) ∧ ∀ v, (f.name, v) ∈ fields → f.flaw? v = none := by
    simp only [Record.field]
    constructor
    · intro h
      refine ⟨fun e he => ?_, fun v hv => by simpa using h _ hv⟩
      by_cases hk : e.1 = f.name
      · rw [hk]
        exact hr e.2
      · simpa [hk] using h e he
    · rintro ⟨h, hf⟩ ⟨k, v⟩ he
      split
      next hk =>
        obtain rfl : k = f.name := hk
        exact hf v he
      next => exact h _ he
  have ho : (r.field f).ofFields fields = .ok b ↔
      ∃ g, r.ofFields fields = .ok g ∧ ∃ a, f.ofFields fields = .ok a ∧ b = g a := by
    simp only [Record.field, Binder.except_bind]
    simp only [pure, Except.pure, Except.ok.injEq, eq_comm]
  simp only [← hp, record_object, hs, ho, ← field_decode hn hd]
  constructor
  · rintro ⟨⟨hg, hf⟩, g, hr, a, ha, hb⟩
    exact ⟨g, a, ⟨hg, hr⟩, ⟨hf, ha⟩, hb⟩
  · rintro ⟨g, a, ⟨hg, hr⟩, ⟨hf, ha⟩, hb⟩
    exact ⟨⟨hg, hf⟩, g, hr, a, ha, hb⟩

theorem record_required {r : Record (α → β)} (key : String) {d : Decoder α} {form : Form α}
    {name : String} {fields : Fields} {P : (α → β) → Prop} (hn : (fields.map Prod.fst).Nodup)
    (hr : ∀ v, r.flaw? key v = none)
    (hd : ∀ v, (key, v) ∈ fields → ∀ a, d v = .ok a ↔ form v a)
    (hp : ∀ g, r.decode name (.object fields) = .ok g ↔ P g) (b : β) :
    (r.field (.required key d)).decode name (.object fields) = .ok b ↔
      ∃ g a, P g ∧ form.Required fields key a ∧ b = g a := by
  rw [record_field (f := .required key d) hn hr hd hp]
  simp [RecordField.required]

theorem record_defaulted {r : Record (α → β)} (key : String) (absent : α) {d : Decoder α}
    {form : Form α} {name : String} {fields : Fields} {P : (α → β) → Prop}
    (hn : (fields.map Prod.fst).Nodup) (hr : ∀ v, r.flaw? key v = none)
    (hd : ∀ v, (key, v) ∈ fields → ∀ a, d v = .ok a ↔ form v a)
    (hp : ∀ g, r.decode name (.object fields) = .ok g ↔ P g) (b : β) :
    (r.field (.defaulted key absent d)).decode name (.object fields) = .ok b ↔
      ∃ g a, P g ∧ form.Defaulted fields key absent a ∧ b = g a := by
  rw [record_field (f := .defaulted key absent d) hn hr hd hp]
  simp [RecordField.defaulted, Form.Defaulted, eq_comm]

theorem items_of (a b : α) (expected : String) (items rest : List Json) :
    (Record.of a).ofItems expected items = .ok (b, rest) ↔ b = a ∧ rest = items := by
  simp [Record.of, eq_comm]

theorem items_field {r : Record (α → β)} {f : RecordField α} {expected : String}
    {items : List Json} {P : (α → β) → List Json → Prop}
    (hp : ∀ g between, r.ofItems expected items = .ok (g, between) ↔ P g between) (b : β)
    (rest : List Json) : (r.field f).ofItems expected items = .ok (b, rest) ↔
      ∃ g between a, P g between ∧ ((∃ v, between = v :: rest ∧ f.decode v = .ok a) ∨
        between = [] ∧ rest = [] ∧ f.absent = some a) ∧ b = g a := by
  simp only [Record.field, Binder.except_bind, Prod.exists, hp]
  refine exists_congr fun g => exists_congr fun between => ?_
  rw [exists_and_left]
  refine and_congr_right fun _ => ?_
  match between, f.absent with
  | v :: between, _ =>
    simp only [Binder.except_bind, pure, Except.pure, Except.ok.injEq, Prod.mk.injEq]
    constructor
    · rintro ⟨a, ha, rfl, rfl⟩
      exact ⟨a, .inl ⟨v, rfl, ha⟩, rfl⟩
    · rintro ⟨a, (⟨w, he, ha⟩ | ⟨he, _⟩), rfl⟩
      · cases he
        exact ⟨a, ha, rfl, rfl⟩
      · cases he
  | [], some c => simp [pure, Except.pure, eq_comm, and_comm]
  | [], none => simp

theorem record_list (r : Record α) (name : String) (items : List Json) (a : α) :
    r.decode name (.list items) = .ok a ↔
      r.ofItems ("struct " ++ name ++ " with " ++ Text.numeral r.size ++ " elements") items =
        .ok (a, []) := by
  rw [Record.decode, Binder.except_bind]
  constructor
  · rintro ⟨⟨b, rest⟩, hr, h⟩
    cases rest with
    | nil =>
      obtain rfl := Except.ok.inj h
      exact hr
    | cons v rest => cases h
  · exact fun h => ⟨(a, []), h, rfl⟩

end

end CohortQuery.Json
