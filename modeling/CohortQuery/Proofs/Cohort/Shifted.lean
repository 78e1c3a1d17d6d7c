import CohortQuery.Proofs.Cohort.Literals
import CohortQuery.Proofs.Cohort.Moved
import CohortQuery.Proofs.Cohort.Reason

/-!
# Compiling behind other values

A tree that is compiled when other values are bound already gets the same text with higher
numbers. Whatever the names of these values are, no new name is one of them.
-/

set_option autoImplicit false

namespace CohortQuery

open Sql (Edit Lacks Moment Predicate)

/-- Changes what stands between braces. Behind an opening one, `inside` was read so far. -/
def Sql.changeHoles (f : List Char → List Char) : Option (List Char) → List Char → List Char
  | none, [] => []
  | none, c :: cs =>
    if c = '\x7b' then changeHoles f (some []) cs else c :: changeHoles f none cs
  | some inside, [] => '\x7b' :: inside
  | some inside, c :: cs =>
    if c = '\x7d' then '\x7b' :: f inside ++ '\x7d' :: changeHoles f none cs
    else changeHoles f (some (inside ++ [c])) cs

/-- A placeholder of a numbered value of a definition with its number increased by `k`, and any
other one as it is. -/
def Placeholder.raised (k : Nat) (inside : List Char) : List Char :=
  match Placeholder.ofInner? inside with
  | none => inside
  | some p =>
    match Bindings.numberOf? p.name with
    | none => inside
    | some (stem, n) =>
      if "coh_".toList <+: stem.toList then (place stem (n + k) p.type).inner else inside

/-- The text with the numbers of all numbered `coh_` placeholders increased by `k`. -/
def Sql.raiseNumbers (k : Nat) (sql : String) : String :=
  String.ofList (changeHoles (Placeholder.raised k) none sql.toList)

section

variable (f : List Char → List Char)

theorem change_outside (us rest : List Char) (h : '\x7b' ∉ us) :
    Sql.changeHoles f none (us ++ rest) = us ++ Sql.changeHoles f none rest := by
  induction us with
  | nil => rfl
  | cons c us ih =>
    rw [List.mem_cons, not_or] at h
    rw [List.cons_append, Sql.changeHoles, if_neg (Ne.symm h.1), ih h.2, List.cons_append]

theorem change_inside (inside us rest : List Char) (h : '\x7d' ∉ us) :
    Sql.changeHoles f (some inside) (us ++ '\x7d' :: rest) =
      '\x7b' :: f (inside ++ us) ++ '\x7d' :: Sql.changeHoles f none rest := by
  induction us generalizing inside with
  | nil => simp [Sql.changeHoles]
  | cons c us ih =>
    rw [List.mem_cons, not_or] at h
    rw [List.cons_append, Sql.changeHoles, if_neg (Ne.symm h.1), ih _ h.2, List.append_assoc]
    rfl

theorem placeholder_chars (p : Placeholder) :
    p.render.toList = '\x7b' :: p.inner ++ ['\x7d'] := by
  simp [Placeholder.render, Placeholder.inner]

theorem inner_closed {p : Placeholder} (h : p.Proper) : '\x7d' ∉ p.inner := by
  have ht : '\x7d' ∉ p.type.render.toList := by
    cases p.type <;> decide
  have hn : '\x7d' ∉ p.name.toList := fun hm => absurd (h _ hm) (by decide)
  simp [Placeholder.inner, ht, hn]

theorem change_placeholder {p q : Placeholder} (h : p.Proper) (hq : f p.inner = q.inner)
    (rest : List Char) : Sql.changeHoles f none (p.render.toList ++ rest) =
      q.render.toList ++ Sql.changeHoles f none rest := by
  rw [placeholder_chars, placeholder_chars, List.cons_append, List.cons_append, Sql.changeHoles,
    if_pos rfl, List.append_assoc]
  change Sql.changeHoles f (some []) (p.inner ++ '\x7d' :: rest) = _
  rw [change_inside f [] _ _ (inner_closed h), List.nil_append, hq]
  simp

end

def raising (k : Nat) : Edit :=
  ⟨Sql.changeHoles (Placeholder.raised k) none, fun _ => 0⟩

theorem stem_proper {stem : String} (h : stem ∈ literalStems) :
    Sql.Wordlike stem ∧ "coh_".toList <+: stem.toList := by
  have hs : ∀ stem ∈ literalStems, Sql.Wordlike stem ∧ "coh_".toList <+: stem.toList := by decide
  exact hs stem h

theorem place_raised {stem : String} (h : stem ∈ literalStems) (n k : Nat) (type : ParamType) :
    Placeholder.raised k (place stem n type).inner = (place stem (n + k) type).inner := by
  obtain ⟨hw, hc⟩ := stem_proper h
  rw [Placeholder.raised, inner_read _ (place_proper stem n type hw)]
  change (match Bindings.numberOf? (Bindings.freshName stem n) with
    | none => _
    | some (stem, n) => _) = _
  rw [number_fresh]
  exact if_pos hc

theorem raising_moves (k : Nat) (b : Bindings) : Moves (raising k) k 0 b.stop b.stop := by
  have hole {p q : Placeholder} (h : p.Proper) (hq : Placeholder.raised k p.inner = q.inner) :
      (raising k).Turns 0 p.render q.render :=
    fun rest => ⟨change_placeholder _ h hq rest, rfl⟩
  have words (s : String) (h : Sql.Braceless s) : (raising k).Keeps s :=
    fun rest => ⟨change_outside _ _ rest h, rfl⟩
  refine ⟨fun s h => words s h.braceless, hole (by decide) rfl, ?_, ?_⟩
  · intro stem hs n type _
    exact hole (place_proper stem n type (stem_proper hs).1) (place_raised hs n k type)
  · unfold Bindings.stop
    cases b.dateTo with
    | none => exact words _ (by decide)
    | some t => exact hole (by decide) rfl

theorem numbered_below {n : Nat} {vs : Literals} {name : String}
    (h : name ∈ (Bindings.numbered n vs).map Prod.fst) :
    ∃ stem k, k < n + vs.length ∧ name = Bindings.freshName stem k := by
  induction vs generalizing n with
  | nil => cases h
  | cons v vs ih =>
    rw [Bindings.numbered, List.map_cons, List.mem_cons] at h
    rcases h with rfl | h
    · exact ⟨v.1, n, by simp, rfl⟩
    · obtain ⟨stem, k, hk, rfl⟩ := ih h
      exact ⟨stem, k, by rw [List.length_cons]; omega, rfl⟩

theorem mem_numbered (n : Nat) (vs : Literals) (e : String × Value) :
    e ∈ Bindings.numbered n vs ↔
      ∃ stem i, (stem, e.2) ∈ vs[i]? ∧ e.1 = Bindings.freshName stem (n + i) := by
  induction vs generalizing n with
  | nil => simp [Bindings.numbered]
  | cons v vs ih =>
    rw [Bindings.numbered, List.mem_cons, ih]
    constructor
    · rintro (rfl | ⟨stem, i, hi, he⟩)
      · exact ⟨v.1, 0, rfl, rfl⟩
      · exact ⟨stem, i + 1, hi, by rw [he, Nat.add_right_comm, Nat.add_assoc]⟩
    · rintro ⟨stem, i, hi, he⟩
      cases i with
      | zero =>
        obtain rfl : v = (stem, e.2) := Option.some.inj hi
        exact .inl (Prod.ext he rfl)
      | succ i => exact .inr ⟨stem, i, hi, by rw [he, Nat.add_right_comm, Nat.add_assoc]⟩

theorem numbered_shifted (m k : Nat) (vs : Literals) (stem : String) (n : Nat) (v : Value) :
    (Bindings.freshName stem (n + k), v) ∈ Bindings.numbered (m + k) vs ↔
      (Bindings.freshName stem n, v) ∈ Bindings.numbered m vs := by
  rw [mem_numbered, mem_numbered]
  constructor
  · rintro ⟨s, i, hi, he⟩
    obtain ⟨rfl, hn⟩ := Bindings.fresh_name_injective he
    exact ⟨stem, i, hi, by rw [show n = m + i by omega]⟩
  · rintro ⟨s, i, hi, he⟩
    obtain ⟨rfl, rfl⟩ := Bindings.fresh_name_injective he
    exact ⟨stem, i, hi, by rw [Nat.add_right_comm]⟩

theorem number_free {projectId : String} {dateTo : Option String} {b : Bindings}
    (hb : Bindings.start projectId dateTo = .ok b) (us : Literals) (stem : String) {n : Nat}
    (hn : us.length ≤ n) : (b.bindAll us).params.get? (Bindings.freshName stem n) = none := by
  have hu : Bindings.freshName stem n ∉ (Bindings.numbered 0 us).map Prod.fst := by
    intro hm
    obtain ⟨_, k, hk, he⟩ := numbered_below hm
    obtain ⟨_, rfl⟩ := Bindings.fresh_name_injective he
    omega
  obtain ⟨u, hp⟩ := (started hb).params
  rw [Bindings.bind_all_params, (started hb).counter, get_set_all_other _ _ _ hu,
    Option.eq_none_iff_forall_ne_some]
  intro v hv
  rcases (hp _ v).mp hv with ⟨h, _⟩ | ⟨t, _, h, _⟩
  · exact Bindings.fresh_name_ne stem _ n (by decide) h.symm
  · exact Bindings.fresh_name_ne stem _ n (by decide) h.symm

/-- From `s`, where `k` values are bound, a tree led to `q` and `f`, and from the new statement
`b` to `p` and `d`: everything that is new in `f` is what is new in `d`, with its numbers
increased by `k`. -/
structure Shifted (k : Nat) (b : Bindings) (p : Predicate) (d s : Bindings) (q : Predicate)
    (f : Bindings) : Prop where
  text : Predicate.render q = Sql.raiseNumbers k (Predicate.render p)
  counter : ∃ n, d.counter = b.counter + n ∧ f.counter = s.counter + n
  added : ∀ stem n v, d.params.get? (Bindings.freshName stem n) = some v →
    s.params.get? (Bindings.freshName stem (n + k)) = none ∧
      f.params.get? (Bindings.freshName stem (n + k)) = some v
  kept : ∀ name v, s.params.get? name = some v → f.params.get? name = some v
  nothingElse : ∀ name v, f.params.get? name = some v → s.params.get? name = some v ∨
    ∃ stem n, name = Bindings.freshName stem (n + k) ∧
      d.params.get? (Bindings.freshName stem n) = some v

theorem node_shifted {projectId : String} {dateTo : Option String} {b : Bindings}
    (hb : Bindings.start projectId dateTo = .ok b) (us vs : Literals) {p q : Predicate}
    (ht : (raising us.length).Turns 0 (Predicate.render p) (Predicate.render q)) :
    Shifted us.length b p (b.bindAll vs) (b.bindAll us) q ((b.bindAll us).bindAll vs) := by
  have hc : (b.bindAll us).counter = 0 + us.length := by
    rw [Bindings.bind_all_counter, (started hb).counter]
  have hd (stem : String) (n : Nat) (v : Value) :
      (b.bindAll vs).params.get? (Bindings.freshName stem n) = some v ↔
        (Bindings.freshName stem n, v) ∈ Bindings.numbered 0 vs := by
    have hn := number_free hb [] stem (Nat.zero_le n)
    rw [Bindings.bind_all_params, (started hb).counter,
      get_set_all _ _ _ _ (Bindings.numbered_nodup 0 vs)]
    simp [show b.params.get? (Bindings.freshName stem n) = none from hn]
  have hf (name : String) (v : Value) := get_set_all (b.bindAll us).params name v
    (Bindings.numbered (0 + us.length) vs) (Bindings.numbered_nodup _ vs)
  rw [← hc, ← Bindings.bind_all_params] at hf
  refine ⟨?_, ⟨vs.length, ?_, ?_⟩, ?_, ?_, ?_⟩
  · have hw := (Sql.turns_whole ht).1
    rw [Sql.raiseNumbers]
    change _ = String.ofList ((raising us.length).text _)
    rw [hw]
    simp [raising, Sql.changeHoles]
  · exact Bindings.bind_all_counter b vs
  · exact Bindings.bind_all_counter _ vs
  · intro stem n v hv
    refine ⟨number_free hb us stem (Nat.le_add_left _ n), (hf _ v).mpr (.inl ?_)⟩
    rw [hc]
    exact (numbered_shifted 0 us.length vs stem n v).mpr ((hd stem n v).mp hv)
  · intro name v hv
    refine (hf name v).mpr (.inr ⟨hv, fun hm => ?_⟩)
    obtain ⟨stem, n, hn, rfl⟩ := Bindings.numbered_number hm
    rw [number_free hb us stem (by omega)] at hv
    cases hv
  · intro name v hv
    rcases (hf name v).mp hv with hm | ⟨hs, _⟩
    · right
      obtain ⟨stem, i, hi, rfl⟩ := (mem_numbered _ vs (name, v)).mp hm
      refine ⟨stem, i, by rw [hc, Nat.zero_add, Nat.add_comm], (hd stem i v).mpr ?_⟩
      exact (mem_numbered 0 vs _).mpr ⟨stem, i, hi, by rw [Nat.zero_add]⟩
    · exact .inl hs

/-- A tree is compiled behind other values as in a new statement, but for the numbers. -/
theorem compiles_shifted (projectId : String) (dateTo : Option String) (b : Bindings)
    (hb : Bindings.start projectId dateTo = .ok b) (us : Literals) (allowed : AllowList)
    (c : Condition) :
    (∀ e, ((c.compile allowed).outcome (b.bindAll us)).1 = .error e ↔
      ((c.compile allowed).outcome b).1 = .error e) ∧
    ∀ p d, (c.compile allowed).Yields b p d → ∃ q f,
      (c.compile allowed).Yields (b.bindAll us) q f ∧
        Shifted (b.bindAll us).counter b p d (b.bindAll us) q f := by
  refine ⟨refused_alike allowed c (b.bindAll us) b, fun p d h => ?_⟩
  obtain ⟨vs, hl, rfl⟩ := (yields_node allowed Limits.depth c b d p).mp h
  obtain ⟨q, hq, ht⟩ := node_moves (raising_moves us.length b) hl
  have hc : (b.bindAll us).counter = us.length := by
    rw [Bindings.bind_all_counter, (started hb).counter, Nat.zero_add]
  rw [Nat.zero_mul] at ht
  rw [(started hb).counter, Nat.zero_add, ← hc, ← stop_bind_all b us] at hq
  refine ⟨q, _, (yields_node allowed Limits.depth c _ _ q).mpr ⟨vs, hq, rfl⟩, ?_⟩
  rw [hc]
  exact node_shifted hb us vs ht

def earlierLiterals : Literals :=
  [("coh_event", .word 1), ("coh_event_1", .text "login"), ("", .integer 7)]

theorem mixed_shifted : ∃ b p d q f,
    Bindings.start "6f1c2b8e-3d4a-4e5f-8a9b-0c1d2e3f4a5b" (some "2025-03-01") = .ok b ∧
    (mixedDefinition.root.compile mixedAllowed).Yields b p d ∧
    (mixedDefinition.root.compile mixedAllowed).Yields (b.bindAll earlierLiterals) q f ∧
    Shifted 3 b p d (b.bindAll earlierLiterals) q f := by
  obtain ⟨b, _, hb, _⟩ := regulars_listed
  obtain ⟨p, d, hy⟩ := mixed_compiles (started hb).counter
  obtain ⟨_, hs⟩ := compiles_shifted _ _ b hb earlierLiterals mixedAllowed mixedDefinition.root
  obtain ⟨q, f, hq, hf⟩ := hs p d hy
  rw [Bindings.bind_all_counter, (started hb).counter] at hf
  exact ⟨b, p, d, q, f, hb, hy, hq, hf⟩

end CohortQuery
