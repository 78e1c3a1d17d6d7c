import CohortQuery.Program.Work
import CohortQuery.Proofs.Cohort.Number
import CohortQuery.Proofs.Json.Shown

/-!
# Statements read back

The statements that are shown are read from the text alone. The type of a value is that of its
placeholder; the only value that a statement need not name is the end of the windows, a time.
-/

set_option autoImplicit false

namespace CohortQuery

/-- The value of this type that is shown so. -/
def ParamType.ofJson? : ParamType → Json → Option Value
  | text, .text s => some (.text s)
  | uuid, .text s => some (.uuid s)
  | time, .text s => some (.time s)
  | word, .number (.integer i) => if 0 ≤ i then some (.word i.toNat) else none
  | integer, .number (.integer i) => some (.integer i)
  | real, .number (.real x) => some (.real x)
  | _, _ => none

/-- The type of the value under a name, where these are the placeholders. -/
def typeOf (ps : List Placeholder) (name : String) : ParamType :=
  ((ps.find? fun p => p.name = name).map Placeholder.type).getD .time

def Params.ofJson? (ps : List Placeholder) : Json → Option Params
  | .object fields => fields.mapM fun (name, v) => do
    return (name, ← (typeOf ps name).ofJson? v)
  | _ => none

def Query.ofJson? : Json → Option Query
  | .object [("sql", .text sql), ("params", params)] => do
    return ⟨sql, ← Params.ofJson? (← Sql.placeholders sql) params⟩
  | _ => none

theorem value_shown {v : Value} (h : v.Exact) : v.type.ofJson? v.toJson = some v := by
  cases v with
  | text | uuid | time | integer => rfl
  | word n => simp [Value.type, Value.toJson, Json.int, ParamType.ofJson?]
  | real x =>
    have finite : x.isFinite = true := h.finite
    rw [Value.toJson, if_pos finite]
    rfl

theorem value_exact {v : Value} (h : v.Exact) : v.toJson.Exact := by
  cases v with
  | text | uuid | time => exact .text _
  | word | integer => exact .number trivial
  | real x =>
    have finite : x.isFinite = true := h.finite
    rw [Value.toJson, if_pos finite]
    exact .number h

theorem params_shown {ps : List Placeholder} {params : Params}
    (h : ∀ e ∈ params, typeOf ps e.1 = e.2.type ∧ e.2.Exact) :
    Params.ofJson? ps params.toJson = some params := by
  rw [Params.toJson, Params.ofJson?]
  induction params with
  | nil => rfl
  | cons e params ih =>
    obtain ⟨name, v⟩ := e
    obtain ⟨⟨typed, exact⟩, h⟩ := List.forall_mem_cons.mp h
    have value : (typeOf ps name).ofJson? v.toJson = some v := by
      rw [typed]
      exact value_shown exact
    rw [List.map_cons, List.mapM_cons, ih h]
    dsimp only
    rw [value]
    rfl

section

variable {q : Query} (ho : q.params.Ordinary)

include ho

theorem query_exact : q.toJson.Exact := by
  have params : ∀ f ∈ q.params.map fun e => (e.1, e.2.toJson), f.2.Exact :=
    List.forall_mem_map.mpr fun e he => value_exact (ho.exact e he)
  refine .object (List.forall_mem_cons.mpr ⟨.text _, ?_⟩)
  exact List.forall_mem_singleton.mpr (.object params)

theorem closed_types {ps : List Placeholder} {idle : String → Prop} (hc : ClosedBy q ps idle)
    (hi : ∀ name, idle name → name = Bindings.dateToName) :
    ∀ e ∈ q.params, typeOf ps e.1 = e.2.type := by
  intro e he
  have found : q.params.get? e.1 = some e.2 :=
    (Json.lookup_distinct (Text.sorted_nodup ho.sorted) _ _).mpr he
  unfold typeOf
  cases hp : ps.find? fun p => p.name = e.1 with
  | some p =>
    have name : p.name = e.1 := by simpa using List.find?_some hp
    obtain ⟨v, hv, type⟩ := hc.bound p (List.mem_of_find?_eq_some hp)
    rw [name, found] at hv
    rw [Option.map_some, Option.getD_some, ← type, Option.some.inj hv]
  | none =>
    have unnamed : e.1 ∉ ps.map Placeholder.name := by simpa using hp
    have date := hi e.1 ((hc.named e.1).mp ⟨Option.isSome_of_eq_some found, unnamed⟩)
    exact (ho.date e.2 (date ▸ he)).symm

/-- The statement comes back from what is shown of it. -/
def Query.Returns (q : Query) : Prop :=
  q.toJson.Exact ∧ Query.ofJson? q.toJson = some q

theorem query_returns {ps : List Placeholder} {idle : String → Prop} (hc : ClosedBy q ps idle)
    (hi : ∀ name, idle name → name = Bindings.dateToName) : q.Returns := by
  have types := closed_types ho hc hi
  have params := params_shown fun e he => ⟨types e he, ho.exact e he⟩
  refine ⟨query_exact ho, ?_⟩
  rw [Query.toJson, Query.ofJson?, hc.text, Option.bind_eq_bind, Option.bind_some, params]
  rfl

end

section

variable {projectId : String} {dateTo : Option String} {b : Bindings}
  (hb : Bindings.start projectId dateTo = .ok b) {d : Definition}
  (hf : ∀ l ∈ d.root.leaves, ∀ o ∈ l.operands, Fits o) {allowed : AllowList}

include hb hf

theorem listing_returns {q : Query} (h : d.listing allowed b = .ok q) : q.Returns := by
  obtain ⟨p, c, ps, _, hy, hp, hc, _⟩ := listing_closed (started hb) h
  have ho : q.params.Ordinary := hp ▸ compiled_ordinary hb hf hy
  exact query_returns ho hc fun _ h => h.1

theorem materialization_returns {cohort : String} {m : Materialization}
    (h : d.materialization cohort allowed b = .ok m) :
    m.clear.Returns ∧ m.insert.Returns ∧ m.count.Returns := by
  obtain ⟨ps, hinsert⟩ := insert_closed (started hb) h
  obtain ⟨⟨_, hclear⟩, _, hcount⟩ := stored_closed (started hb) h
  obtain ⟨_, p, c, hy, rfl⟩ := (materialization_ok d cohort allowed b m).mp h
  have bound := set_ordinary (compiled_ordinary hb hf hy) (v := .text cohort) trivial
    (by decide : cohortName ≠ Bindings.dateToName)
  have scope := scope_ordinary bound
  exact ⟨query_returns scope hclear fun _ h => h.elim,
    query_returns bound hinsert fun _ h => h.1, query_returns scope hcount fun _ h => h.elim⟩

end

namespace Program

def Compiled.queries : Compiled → List Query
  | listing q => [q]
  | materialization m => [m.clear, m.insert, m.count]

/-- Three statements under their names, or one alone. -/
def statementsOf? : Json → Option (List Query)
  | .object [("clear", clear), ("insert", insert), ("count", count)] =>
    [clear, insert, count].mapM Query.ofJson?
  | v => (Query.ofJson? v).map fun q => [q]

def shownStatements? (text : String) : Option (List Query) :=
  (Json.Shown.read? text).bind statementsOf?

section

variable {r : Store.CohortRequest} {m : Option String} {c : Compiled} (hc : statements r m = .ok c)

include hc

theorem statements_cases :
    (∃ q, m = none ∧ r.listing = .ok q ∧ c = .listing q) ∨
      ∃ cohort stored, m = some cohort ∧ r.materialization cohort = .ok stored ∧
        c = .materialization stored := by
  cases m with
  | none =>
    cases hq : r.listing with
    | error e => simp [statements, hq] at hc
    | ok q => exact .inl ⟨q, rfl, rfl, by simpa [statements, hq, eq_comm] using hc⟩
  | some cohort =>
    cases hm : r.materialization cohort with
    | error e => simp [statements, hm] at hc
    | ok stored =>
      exact .inr ⟨cohort, stored, rfl, hm, by simpa [statements, hm, eq_comm] using hc⟩

/-- What is shown of the statements determines them, if the definition was read. -/
theorem statements_shown (hf : ∀ l ∈ r.definition.root.leaves, ∀ o ∈ l.operands, Fits o) :
    shownStatements? (shown c.toJson) = some c.queries := by
  have read (hv : c.toJson.Exact) : shownStatements? (shown c.toJson) = statementsOf? c.toJson := by
    rw [shownStatements?, shown, Json.Shown.read_shown hv, Option.bind_some]
  rcases statements_cases hc with ⟨q, rfl, hq, rfl⟩ | ⟨cohort, stored, rfl, hm, rfl⟩
  · obtain ⟨b, hb, hq⟩ := (Binder.except_bind _ _ _).mp hq
    obtain ⟨exact, query⟩ := listing_returns hb hf hq
    refine (read exact).trans ?_
    exact (congrArg (Option.map fun q => [q]) query).trans rfl
  · obtain ⟨b, hb, hm⟩ := (Binder.except_bind _ _ _).mp hm
    obtain ⟨⟨ec, qc⟩, ⟨ei, qi⟩, eo, qo⟩ := materialization_returns hb hf hm
    refine (read (.object ?_)).trans ?_
    · simpa using ⟨ec, ei, eo⟩
    · rw [Compiled.toJson, Materialization.toJson, statementsOf?, List.mapM_cons, List.mapM_cons,
        List.mapM_cons, qc, qi, qo]
      rfl

end

end Program

end CohortQuery
