import CohortQuery.Proofs.Decimal.Reading
import CohortQuery.Proofs.Sql.Token
import CohortQuery.Store.Wire

/-!
# Values on the wire

The store reads the text of a value by the type that its placeholder has. It gets back the value
that was written, whatever characters are in it, and finds every value under its name.
-/

set_option autoImplicit false

namespace CohortQuery

open Sql (decodeLiteral)

/-- The value of this type that the text stands for. -/
def ParamType.read (t : ParamType) (s : String) : Option Value :=
  match t with
  | text => some (.text (String.ofList (decodeLiteral s.toList)))
  | uuid => some (.uuid (String.ofList (decodeLiteral s.toList)))
  | time => some (.time (String.ofList (decodeLiteral s.toList)))
  | word => (Text.readNumeral s.toList).map .word
  | integer => (Text.readSigned s.toList).map .integer
  | real => (Decimal.readNumber s.toList).map .real

/-- A number is one of the format; any other value will do. -/
def Value.Proper : Value → Prop
  | real x => x.Proper
  | text _ | word _ | integer _ | uuid _ | time _ => True

namespace Store

theorem escaped_read (s : String) :
    String.ofList (decodeLiteral (Template.escapeText s).toList) = s := by
  rw [Template.escapeText, String.toList_ofList, Sql.decode_escaped, String.ofList_toList]
  intro c _
  unfold Template.escapeChar
  split
  next => exact .inl rfl
  next h => exact .inr ⟨rfl, fun hb => h (.inl hb)⟩

/-- The text of a value is read as this value. -/
theorem value_read {v : Value} (h : v.Proper) : v.type.read (valueText v) = some v := by
  cases v with
  | text s => exact congrArg (fun t => some (Value.text t)) (escaped_read s)
  | uuid s => exact congrArg (fun t => some (Value.uuid t)) (escaped_read s)
  | time s => exact congrArg (fun t => some (Value.time t)) (escaped_read s)
  | word n =>
    have read : Text.readNumeral (Text.numeral n).toList = some n := by
      rw [Text.numeral, String.toList_ofList, Text.numeral_read]
    exact congrArg (Option.map Value.word) read
  | integer i => exact congrArg (Option.map Value.integer) (Text.signed_read i)
  | real x => exact congrArg (Option.map Value.real) (Binary64.plain_read h)

/-- The request is the text of the statement. Beside it are the values under their names, each as a
text that is read as the value, and no others. -/
structure WireRequest.Carries (w : WireRequest) (q : Query) : Prop where
  sql : w.sql = q.sql
  sent {name : String} {v : Value} (h : (name, v) ∈ q.params) :
    ∃ text, ("param_" ++ name, text) ∈ w.options ∧ v.type.read text = some v
  only {name text : String} (h : ("param_" ++ name, text) ∈ w.options) :
    ∃ v, (name, v) ∈ q.params ∧ v.type.read text = some v

theorem mem_insert (option o : String × String) (options : List (String × String)) :
    o ∈ insertOption option options ↔ o = option ∨ o ∈ options := by
  induction options with
  | nil => simp [insertOption]
  | cons p options ih =>
    rw [insertOption]
    split
    next => rw [List.mem_cons]
    next => rw [List.mem_cons, ih, List.mem_cons, or_left_comm]

theorem mem_sort (o : String × String) (options : List (String × String)) :
    o ∈ sortOptions options ↔ o ∈ options := by
  unfold sortOptions
  induction options with
  | nil => simp
  | cons p options ih => rw [List.foldr_cons, mem_insert, ih, List.mem_cons]

theorem param_name (name : String) : ∀ other ∈ ["compress", "database",
    "do_not_merge_across_partitions_select_final", "default_format"], "param_" ++ name ≠ other := by
  have known : ∀ other ∈ ["compress", "database", "do_not_merge_across_partitions_select_final",
      "default_format"], ¬"param_".toList <+: other.toList := by
    decide
  intro other ho he
  apply known other ho
  rw [← he, String.toList_append]
  exact List.prefix_append _ _

theorem mem_options (settings : Settings.Store) (r : Request) (name text : String) :
    ("param_" ++ name, text) ∈ (r.onWire settings).options ↔
      ∃ v, (name, v) ∈ r.params ∧ valueText v = text := by
  have hi (other : String) (h : "param_" ++ other = "param_" ++ name) : other = name := by
    have hl := congrArg String.toList h
    rw [String.toList_append, String.toList_append] at hl
    exact String.toList_inj.mp (List.append_cancel_left hl)
  have ho := param_name name
  simp only [List.forall_mem_cons] at ho
  obtain ⟨hc, hd, hm, hf, _⟩ := ho
  have hn : ("param_" ++ name, text) ∉ [("compress", "1"), ("database", settings.database),
      ("do_not_merge_across_partitions_select_final", "1")] := by
    simp [hc, hd, hm]
  have hr : ("param_" ++ name, text) ∉ if r.fetches
      then [("default_format", "RowBinaryWithNamesAndTypes")] else [] := by
    split <;> simp [hf]
  refine (mem_sort _ _).trans ?_
  rw [Request.options, List.mem_append, List.mem_append, List.mem_map]
  constructor
  · rintro ((h | h) | ⟨⟨other, v⟩, h, he⟩)
    · exact absurd h hn
    · exact absurd h hr
    · obtain ⟨hs, rfl⟩ := Prod.mk.inj he
      obtain rfl := hi other hs
      exact ⟨v, h, rfl⟩
  · rintro ⟨v, h, rfl⟩
    exact .inr ⟨(name, v), h, rfl⟩

theorem request_carries (settings : Settings.Store) (r : Request)
    (h : ∀ p ∈ r.params, p.2.Proper) : (r.onWire settings).Carries ⟨r.sql, r.params⟩ := by
  refine ⟨rfl, fun {name v} hp => ?_, fun {name text} ho => ?_⟩
  · exact ⟨_, (mem_options settings r name _).mpr ⟨v, hp, rfl⟩, value_read (h _ hp)⟩
  · obtain ⟨v, hp, rfl⟩ := (mem_options settings r name text).mp ho
    exact ⟨v, hp, value_read (h _ hp)⟩

end Store

end CohortQuery
