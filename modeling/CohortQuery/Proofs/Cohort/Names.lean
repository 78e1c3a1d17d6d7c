import CohortQuery.Proofs.Cohort.Shape

/-!
# Names of properties in the text

The names of properties are all that a definition writes into a text. They stand in the
places of keys, between quotes that they cannot end, and other names leave the rest of the
text as it is.
-/

set_option autoImplicit false

namespace CohortQuery

open Sql (Fragment Keyless Predicate PropertyTest Quotes RowTest Select Twins phrase)

def PropertyOperator.isNumeric : PropertyOperator → Option Json → Bool
  | .ordered _, _ | .equals _, some (.number _) => true
  | _, _ => false

/-- The name of the property, as often as the text of its comparison has it. -/
def comparedNames (property : String) (op : PropertyOperator) (operand : Option Json) :
    List String :=
  if op.isNumeric operand then [property, property] else [property]

def EventFilter.names (f : EventFilter) : List String :=
  comparedNames f.property f.operator f.operand

def Leaf.names : Leaf → List String
  | .event c => c.filters.flatMap EventFilter.names
  | .person c => comparedNames c.property c.operator c.operand
  | .regular c => c.filters.flatMap EventFilter.names
  | .firstTime _ | .member _ => []

def Definition.names (d : Definition) : List String :=
  d.root.leaves.flatMap Leaf.names

theorem test_names {property : String} {operand : Option Json} {n : Nat}
    {op : PropertyOperator} {t : PropertyTest} {vs : Literals} {l : Sql.Lookup}
    (hl : l.key.text = property) (h : TestLowers property operand n op t vs) :
    t.keys l = comparedNames property op operand := by
  subst hl
  cases h with
  | text negated hs =>
    obtain ⟨v, rfl, hv⟩ := scalar_reads hs
    cases v <;> first | rfl | exact hv.elim
  | number negated hs =>
    obtain ⟨v, rfl, hv⟩ := scalar_reads hs
    cases v <;> first | rfl | exact hv.elim
  | flag negated hs =>
    obtain ⟨v, rfl, hv⟩ := scalar_reads hs
    cases v <;> first | rfl | exact hv.elim
  | ordered order => rfl
  | like negated => rfl
  | isSet negated => rfl

section

variable {allowed : AllowList} {stop : Sql.Moment} {n : Nat}

theorem filters_names {fs : List EventFilter} {ts : List RowTest} {vs : Literals}
    (h : FiltersLower allowed n fs ts vs) :
    ts.flatMap RowTest.keys = fs.flatMap EventFilter.names := by
  induction h with
  | nil => rfl
  | cons hk ht _ ih =>
    rw [List.flatMap_cons, List.flatMap_cons, ih]
    exact congrArg (· ++ _) (test_names (check_text hk) ht)

theorem window_rows_keys {ts : List RowTest} :
    (windowRows stop n ++ ts).flatMap RowTest.keys = ts.flatMap RowTest.keys := by
  simp [windowRows, scopeRows, RowTest.keys]

theorem leaf_names {l : Leaf} {f : Fragment} {vs : Literals}
    (h : LeafLowers allowed stop n l f vs) : f.keys = l.names := by
  cases h with
  | event _ _ _ hf => exact window_rows_keys.trans (filters_names hf)
  | regular _ _ _ hf => exact window_rows_keys.trans (filters_names hf)
  | person hk ht => exact test_names (check_text hk) ht
  | firstTime => rfl
  | member => rfl

/-- The keys of a lowered tree are the names in its leaves, from left to right. -/
theorem node_names {room : Nat} {m : Condition} {p : Predicate} {vs : Literals}
    (h : NodeLowers allowed stop room n m p vs) : p.keys = m.leaves.flatMap Leaf.names := by
  have hl := Tree.rel_leaves (node_rel h)
  rw [Predicate.keys]
  generalize m.leaves = ls at hl
  generalize p.leaves = fs at hl
  induction hl with
  | nil => rfl
  | cons hf _ ih =>
    obtain ⟨k, us, hf⟩ := hf
    rw [List.flatMap_cons, List.flatMap_cons, leaf_names hf, ih]

end

theorem compiled_names {allowed : AllowList} {b c : Bindings} {d : Definition} {p : Predicate}
    (h : (d.compile allowed).Yields b p c) : p.Proper ∧ p.keys = d.names := by
  obtain ⟨vs, hl, _⟩ := (yields_node allowed Limits.depth d.root b c p).mp h
  exact ⟨node_proper (stop_proper b) hl, node_names hl⟩

def Harmless (name : String) : Prop :=
  ∀ c ∈ name.toList,
    c ∉ ['\'', '"', '\x60', '\\', '\x7b', '\x7d', '(', ')', '[', ']', ' ', '?']

theorem safe_harmless (name : PropertyName) : Harmless name.text := by
  intro c hc hm
  have hs := Sql.safe_chars name c hc
  revert hs
  simp only [List.mem_cons, List.not_mem_nil, or_false] at hm
  rcases hm with rfl | rfl | rfl | rfl | rfl | rfl | rfl | rfl | rfl | rfl | rfl | rfl <;> decide

section

variable {R : String → String → Prop} {q : Select} {p r : Predicate}

theorem restricted_twins (hk : ∀ e ∈ q.surroundings, Keyless (phrase e)) (hq : Open q)
    (hp : p.Proper) (hr : r.Proper) (h : Tree.Rel (Fragment.Like R) p r) :
    Twins (restricted q p).items (restricted q r).items p.keys r.keys := by
  have hj : Keyless (phrase RowTest.inProject.render ++ Sql.spaced "AND") := by
    rw [Sql.row_phrase .inProject trivial]
    decide
  have hg := Sql.twins_behind (Sql.twins_group (Sql.predicate_twins hp hr h)) hj
  have hw := Sql.twins_behind hg (by decide : Keyless (Sql.spaced "WHERE"))
  have hs : ∀ e ∈ (restricted q p).surroundings, Keyless (phrase e) := hk
  have ho : (restricted q p).openingItems = (restricted q r).openingItems := rfl
  refine Sql.select_twins hs ho rfl ?_
  rw [restricted_conditions, restricted_conditions, hq.conditions]
  simpa [Sql.clauseItems, Sql.between, parenthesized_phrase hp, parenthesized_phrase hr] using hw

end

theorem listing_keyless : ∀ e ∈ listingFrame.surroundings, Keyless (phrase e) := by
  have hs : ∀ is ∈ listingFrame.surroundings.map phrase, Keyless is := by
    rw [listing_phrases]
    decide
  exact List.forall_mem_map.mp hs

theorem insert_keyless : ∀ e ∈ insertFrame.surroundings, Keyless (phrase e) := by
  have hl : insertFrame.surroundings =
      [Sql.eventsTable, "project_id", cohortPlaceholder.render, "distinct_id"] := rfl
  have hc : Keyless (phrase cohortPlaceholder.render) := by
    rw [Sql.phrase_reads (Sql.reads_placeholder cohortPlaceholder (by decide))]
    exact Sql.keyless_hole cohortPlaceholder
  obtain ⟨he, -, hd⟩ := Sql.keyless_constants
  simp only [hl, List.forall_mem_cons]
  exact ⟨he, Sql.phrase_has (by decide), hc, hd, by simp⟩

theorem clear_keyless : Keyless (Sql.word "DELETE" :: clearScope) := by
  decide

theorem count_keyless : Keyless countSelect.items := by
  have hs : ∀ e ∈ countSelect.surroundings, Keyless (phrase e) := by
    simp only [count_surroundings, List.forall_mem_cons]
    refine ⟨?_, Sql.phrase_has (by decide), by simp⟩
    rw [Sql.phrase_reads final_reads]
    decide
  have hw : Keyless (Sql.spaced "WHERE" ++
      Sql.between (Sql.spaced "AND") ((storedRows.map RowTest.render).map phrase)) := by
    rw [Sql.rows_phrases storedRows stored_proper]
    decide
  have hf : Keyless [Sql.word "SELECT"] := by decide
  have hi := Sql.keyless_append hf (Sql.keyless_opening countSelect hs)
  exact Sql.keyless_append (Sql.keyless_append hi hw) (Sql.keyless_closing countSelect hs)

theorem insert_twins {R : String → String → Prop} {p r : Predicate} (hp : p.Proper)
    (hr : r.Proper) (h : Tree.Rel (Fragment.Like R) p r) :
    Twins (insertHead ++ (insertSelect p).items) (insertHead ++ (insertSelect r).items) p.keys
      r.keys :=
  Sql.twins_behind (restricted_twins insert_keyless insert_open hp hr h) (by decide)

/-- The names of `d` stand quoted in the text, and the statements of definitions with other
names have the same text outside of the quotes. -/
def NamesQuoted (statement : Definition → AllowList → Query → Prop) (d : Definition)
    (q : Query) : Prop :=
  ∃ pieces, Quotes q.sql pieces d.names ∧
    ∀ e others r, d.SameFrame e → statement e (.ofNames others) r → Quotes r.sql pieces e.names

theorem keys_quoted {b : Bool} {sql : String} {is : List Sql.Item} {p : Predicate}
    (hr : Sql.Reads b sql is) (hk : Sql.raws (Sql.spots is) = p.keys.map String.toList) :
    Quotes sql (Sql.outside (Sql.spots is)) p.keys := by
  apply Sql.reads_quotes hr hk
  intro name hn
  obtain ⟨key, rfl⟩ := Sql.predicate_keys p name hn
  exact Sql.safe_literal key

section

variable (b : Bindings) {statement : Definition → AllowList → Query → Prop}
  {text : Predicate → String} {items : Predicate → List Sql.Item}
  (hs : ∀ e allowed r, statement e allowed r →
    ∃ p c, (e.compile allowed).Yields b p c ∧ r.sql = text p)
  (hr : ∀ p : Predicate, p.Proper → Sql.Reads false (text p) (items p))
  (ht : ∀ {R : String → String → Prop} {p r : Predicate}, p.Proper → r.Proper →
    Tree.Rel (Fragment.Like R) p r → Twins (items p) (items r) p.keys r.keys)

include hs hr ht

theorem statement_quoted {d : Definition} {allowed : AllowList} {q : Query}
    (h : statement d allowed q) : NamesQuoted statement d q := by
  obtain ⟨p, c, hy, hq⟩ := hs d allowed q h
  obtain ⟨hp, hd⟩ := compiled_names hy
  have hl : Tree.Rel (Fragment.Like Eq) p p := Tree.rel_refl Sql.fragment_like_refl p
  have hk := (Sql.twins_spots (ht hp hp hl)).2.1
  refine ⟨Sql.outside (Sql.spots (items p)), ?_, ?_⟩
  · rw [hq, ← hd]
    exact keys_quoted (hr p hp) hk
  · intro e others r hf hm
    obtain ⟨t, c', hy', ht'⟩ := hs e (.ofNames others) r hm
    obtain ⟨hp', he⟩ := compiled_names hy'
    have hw := ht hp hp' (compiled_like hf ⟨rfl, rfl, rfl⟩ hy hy').1
    obtain ⟨ho, _, hk'⟩ := Sql.twins_spots hw
    rw [ht', ← he, ho]
    exact keys_quoted (hr t hp') hk'

end

theorem listing_quoted {b : Bindings} {d : Definition} {allowed : AllowList} {q : Query}
    (h : d.listing allowed b = .ok q) :
    NamesQuoted (fun e allowed r => e.listing allowed b = .ok r) d q := by
  refine statement_quoted b ?_ (fun p hp => restricted_text listing_open hp)
    (fun hp hr hl => restricted_twins listing_keyless listing_open hp hr hl) h
  intro e allowed r hr
  obtain ⟨p, c, hy, rfl⟩ := (listing_ok _ _ _ _).mp hr
  exact ⟨p, c, hy, rfl⟩

theorem insert_quoted {b : Bindings} {d : Definition} {cohort : String} {allowed : AllowList}
    {m : Materialization} (h : d.materialization cohort allowed b = .ok m) :
    NamesQuoted (fun e allowed r =>
      ∃ target k, e.materialization target allowed b = .ok k ∧ r = k.insert) d m.insert := by
  refine statement_quoted b ?_ insert_text
    (fun hp hr hl => insert_twins hp hr hl) ⟨cohort, m, h, rfl⟩
  intro e allowed r hr
  obtain ⟨target, k, hk, rfl⟩ := hr
  obtain ⟨_, p, c, hy, rfl⟩ := (materialization_ok _ _ _ _ _).mp hk
  exact ⟨p, c, hy, rfl⟩

theorem accepted_harmless {b c : Bindings} {d : Definition} {allowed : AllowList}
    {p : Predicate} (h : (d.compile allowed).Yields b p c) : ∀ name ∈ d.names, Harmless name := by
  intro name hn
  rw [← (compiled_names h).2] at hn
  obtain ⟨key, rfl⟩ := Sql.predicate_keys p name hn
  exact safe_harmless key

/-- The keys in the texts of a definition are its names from left to right, and no name
reaches out of its quotes. The texts that do not ask for the persons have no keys. -/
theorem names_stay_quoted (names : List String) (b : Bindings) (d : Definition) :
    (∀ q, d.listing (.ofNames names) b = .ok q → (∀ name ∈ d.names, Harmless name) ∧
      NamesQuoted (fun e allowed r => e.listing allowed b = .ok r) d q) ∧
    ∀ cohort m, d.materialization cohort (.ofNames names) b = .ok m →
      (∀ name ∈ d.names, Harmless name) ∧
      NamesQuoted (fun e allowed r =>
        ∃ target k, e.materialization target allowed b = .ok k ∧ r = k.insert) d m.insert ∧
      (m.clear.sql = Materialization.clearText ∧ m.count.sql = Materialization.countText) ∧
      Quotes Materialization.clearText [Materialization.clearText.toList] [] ∧
      Quotes Materialization.countText [Materialization.countText.toList] [] := by
  constructor
  · intro q hq
    obtain ⟨p, c, hy, _⟩ := (listing_ok _ _ _ _).mp hq
    exact ⟨accepted_harmless hy, listing_quoted hq⟩
  · intro cohort m hm
    have hi := insert_quoted hm
    obtain ⟨_, p, c, hy, rfl⟩ := (materialization_ok _ _ _ _ _).mp hm
    have hc : Sql.Reads false Materialization.countText countSelect.items := by
      rw [count_select]
      exact Sql.selects_text count_selects
    exact ⟨accepted_harmless hy, hi, ⟨rfl, rfl⟩, Sql.keyless_quotes clear_text clear_keyless,
      Sql.keyless_quotes hc count_keyless⟩

def ageDefinition (age plan : String) : Definition :=
  ⟨.and, [.leaf (.person ⟨age, .ordered .above, some (.int 30)⟩),
    .group .or [.leaf (.person ⟨plan, .isSet false, none⟩)]]⟩

theorem ages_stay_quoted : ∃ pieces q r,
    (ageDefinition "age" "plan").listing (.ofNames ["age", "plan", "it's"]) ⟨[], 0, none⟩ = .ok q ∧
    (ageDefinition "years" "$tariff").listing (.ofNames ["years", "$tariff"]) ⟨[], 0, none⟩ =
      .ok r ∧
    Quotes q.sql pieces ["age", "age", "plan"] ∧
    Quotes r.sql pieces ["years", "years", "$tariff"] := by
  have hq (b : Bindings) : ∃ q,
      (ageDefinition "age" "plan").listing (.ofNames ["age", "plan", "it's"]) b = .ok q :=
    ⟨_, rfl⟩
  have hr (b : Bindings) : ∃ r,
      (ageDefinition "years" "$tariff").listing (.ofNames ["years", "$tariff"]) b = .ok r :=
    ⟨_, rfl⟩
  obtain ⟨q, hq⟩ := hq ⟨[], 0, none⟩
  obtain ⟨r, hr⟩ := hr ⟨[], 0, none⟩
  have hf : (ageDefinition "age" "plan").SameFrame (ageDefinition "years" "$tariff") :=
    ⟨rfl, ⟨trivial, rfl, trivial⟩, ⟨rfl, ⟨trivial, rfl, trivial⟩, trivial⟩, trivial⟩
  obtain ⟨_, pieces, hp, hn⟩ := (names_stay_quoted _ _ _).1 q hq
  exact ⟨pieces, q, r, hq, hr, hp, hn _ _ r hf hr⟩

end CohortQuery
