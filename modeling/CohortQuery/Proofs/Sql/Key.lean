import CohortQuery.Proofs.Sql.Formula

/-!
# Keys of a text

Some functions take the name of a property as their second argument. The literals that stand
there are the keys of a text. Two texts are twins if they differ in nothing but their keys.
-/

set_option autoImplicit false

namespace CohortQuery.Sql

inductive Spot where
  | other (t : Token)
  /-- The literal of a key. -/
  | key (raw : List Char)
  deriving DecidableEq

namespace Spot

def token : Spot → Token
  | other t => t
  | key raw => .literal raw

def hidden : Spot → Spot
  | other t => other t
  | key _ => key []

def raw? : Spot → Option (List Char)
  | other _ => none
  | key raw => some raw

end Spot

def Token.takesKey : Token → Bool
  | .word cs => ["JSONExtractString", "JSONExtractRaw", "JSONExtract"].any fun f => cs = f.toList
  | _ => false

def Item.takesKey : Item → Bool
  | .token t => t.takesKey
  | .group _ => false

def Item.isComma : Item → Bool
  | .token (.mark c) => c = ','
  | _ => false

mutual

/-- `called` says that the item follows the name of a function that takes a key, `isKey` that
it stands where such a function has its key. -/
def Item.spots (called isKey : Bool) : Item → List Spot
  | .token (.literal raw) => if isKey then [.key raw] else [.other (.literal raw)]
  | .token t => [.other t]
  | .group is =>
    .other (.mark '(') ::
      (spotsFrom (if called then some 0 else none) false is ++ [.other (.mark ')')])

/-- In the arguments of a function that takes a key `argument` is the number of commas
before the items. -/
def spotsFrom (argument : Option Nat) (called : Bool) : List Item → List Spot
  | [] => []
  | i :: is =>
    i.spots called (argument = some 1) ++
      spotsFrom (if i.isComma then argument.map (· + 1) else argument)
        (i.takesKey || (called && i.isBlank)) is

end

def spots (is : List Item) : List Spot :=
  spotsFrom none false is

def raws (s : List Spot) : List (List Char) :=
  s.filterMap Spot.raw?

def prepend (cs : List Char) : List (List Char) → List (List Char)
  | [] => [cs]
  | p :: ps => (cs ++ p) :: ps

def outside : List Spot → List (List Char)
  | [] => [[]]
  | .other t :: s => prepend t.text (outside s)
  | .key _ :: s => [] :: outside s

/-- The pieces with quoted keys between them. -/
def weave : List (List Char) → List (List Char) → List Char
  | [], _ => []
  | p :: ps, [] => p ++ weave ps []
  | p :: ps, k :: ks => p ++ '\'' :: (k ++ '\'' :: weave ps ks)

/-- The keys of the text are `names`, each as it is quoted, and `pieces` stands around them. -/
structure Quotes (sql : String) (pieces : List (List Char)) (names : List String) : Prop where
  keys : ∃ is, read sql = some is ∧ outside (spots is) = pieces ∧
    (raws (spots is)).map decodeLiteral = names.map String.toList
  text : sql.toList = weave pieces (names.map String.toList)

mutual

theorem item_spots_tokens (called isKey : Bool) (i : Item) :
    (i.spots called isKey).map Spot.token = i.tokens := by
  match i with
  | .token (.literal raw) => cases isKey <;> rfl
  | .token (.word cs) => rfl
  | .token (.hole cs) => rfl
  | .token (.mark c) => rfl
  | .group is =>
    have h := spots_tokens (if called then some 0 else none) false is
    simp [Item.spots, Item.tokens, Spot.token, h]

theorem spots_tokens (argument : Option Nat) (called : Bool) (is : List Item) :
    (spotsFrom argument called is).map Spot.token = tokensOf is := by
  match is with
  | [] => rfl
  | i :: is => rw [spotsFrom, List.map_append, item_spots_tokens, spots_tokens, tokensOf]

end

theorem weave_prepend (cs : List Char) (ps ks : List (List Char)) (h : ps ≠ []) :
    weave (prepend cs ps) ks = cs ++ weave ps ks := by
  cases ps with
  | nil => exact absurd rfl h
  | cons p ps => cases ks <;> simp [prepend, weave]

theorem outside_ne_nil (s : List Spot) : outside s ≠ [] := by
  cases s with
  | nil => simp [outside]
  | cons x s =>
    cases x with
    | key raw => simp [outside]
    | other t =>
      rw [outside]
      cases outside s <;> simp [prepend]

theorem weave_outside (s : List Spot) : weave (outside s) (raws s) = spell (s.map Spot.token) := by
  induction s with
  | nil => rfl
  | cons x s ih =>
    cases x with
    | other t =>
      have hr : raws (.other t :: s) = raws s := rfl
      rw [outside, hr, weave_prepend _ _ _ (outside_ne_nil s), ih]
      rfl
    | key raw =>
      have hr : raws (.key raw :: s) = raw :: raws s := rfl
      rw [outside, hr, weave, ih]
      simp [spell, Spot.token, Token.text]

/-- A text is what stands outside of its keys, with the keys in between. -/
theorem read_weave {sql : String} {is : List Item} (h : read sql = some is) :
    sql.toList = weave (outside (spots is)) (raws (spots is)) := by
  rw [weave_outside, spots, spots_tokens]
  exact (lex_spell sql _ (read_tokens sql is h)).symm

example : (read "JSONExtract(a, 'k', 'T') = 'v'").map (fun is => raws (spots is)) =
    some [['k']] := by
  decide +kernel

theorem outside_hidden (s : List Spot) : outside (s.map Spot.hidden) = outside s := by
  induction s with
  | nil => rfl
  | cons x s ih => cases x <;> simp [outside, Spot.hidden, ih]

/-- Wherever the items stand beside others, their spots are `s`. -/
def Located (is : List Item) (s : List Spot) : Prop :=
  ∀ rest, spots (is ++ rest) = s ++ spots rest

theorem located_spots {is : List Item} {s : List Spot} (h : Located is s) : spots is = s := by
  have hn := h []
  rwa [List.append_nil, show spots [] = [] from rfl, List.append_nil] at hn

theorem located_append {is js : List Item} {s t : List Spot} (hi : Located is s)
    (hj : Located js t) : Located (is ++ js) (s ++ t) := by
  intro rest
  rw [List.append_assoc, hi, hj, List.append_assoc]

theorem located_group {is : List Item} {s : List Spot} (h : Located is s) :
    Located [.group is] (.other (.mark '(') :: (s ++ [.other (.mark ')')])) := by
  intro rest
  have hs : spotsFrom none false is = s := located_spots h
  simp [spots, spotsFrom, Item.spots, hs, Item.isComma, Item.takesKey]

theorem located_reader {t : Token} (is : List Item) (h : t.takesKey = true) :
    Located [.token t, .group is]
      (.other t :: .other (.mark '(') ::
        (spotsFrom (some 0) false is ++ [.other (.mark ')')])) := by
  intro rest
  cases t with
  | word cs => simp [spots, spotsFrom, Item.spots, Item.isComma, Item.isBlank, Item.takesKey, h]
  | literal raw => cases h
  | hole cs => cases h
  | mark c => cases h

def Keyless (is : List Item) : Prop :=
  ∀ t ∈ tokensOf is, t.takesKey = false

instance (is : List Item) : Decidable (Keyless is) :=
  inferInstanceAs (Decidable (∀ t ∈ tokensOf is, t.takesKey = false))

theorem keyless_append {is js : List Item} (hi : Keyless is) (hj : Keyless js) :
    Keyless (is ++ js) := by
  intro t ht
  rw [tokens_append, List.mem_append] at ht
  exact ht.elim (hi t) (hj t)

theorem keyless_each (is : List Item) : Keyless is ↔ ∀ i ∈ is, Keyless [i] := by
  induction is with
  | nil => simp [Keyless, tokensOf]
  | cons i is ih =>
    rw [List.forall_mem_cons, ← ih]
    simp [Keyless, tokensOf, or_imp, forall_and]

mutual

theorem item_keyless {i : Item} (h : ∀ t ∈ i.tokens, t.takesKey = false) :
    i.takesKey = false ∧ i.spots false false = i.tokens.map .other := by
  match i with
  | .token (.literal raw) => exact ⟨rfl, rfl⟩
  | .token (.word cs) => exact ⟨h (.word cs) (by simp [Item.tokens]), rfl⟩
  | .token (.hole cs) => exact ⟨rfl, rfl⟩
  | .token (.mark c) => exact ⟨rfl, rfl⟩
  | .group is =>
    have hg : Keyless is := fun t ht => h t (by simp [Item.tokens, ht])
    have hs : spotsFrom none false is = (tokensOf is).map .other := by
      have hl := keyless_located hg []
      rwa [List.append_nil, show spots [] = [] from rfl, List.append_nil] at hl
    simp [Item.takesKey, Item.spots, Item.tokens, hs]

theorem keyless_located {is : List Item} (h : Keyless is) :
    Located is ((tokensOf is).map .other) := by
  intro rest
  match is with
  | [] => rfl
  | i :: is =>
    have hi := item_keyless (i := i) fun t ht => h t (by simp [tokensOf, ht])
    have hr : Keyless is := fun t ht => h t (by simp [tokensOf, ht])
    have ht := keyless_located hr rest
    simp only [spots] at ht
    simp [spots, spotsFrom, tokensOf, hi, ht]

end

/-- The items differ in their keys only: `ks` are those of the one, `ls` of the other. -/
inductive Twins (is js : List Item) (ks ls : List String) : Prop where
  | intro {s t : List Spot} (hi : Located is s) (hj : Located js t)
      (ho : s.map Spot.hidden = t.map Spot.hidden) (hk : raws s = ks.map String.toList)
      (hl : raws t = ls.map String.toList)

theorem twins_keyless {is : List Item} (h : Keyless is) : Twins is is [] [] := by
  have hr : raws ((tokensOf is).map .other) = [] := by
    simp [raws, Function.comp_def, Spot.raw?]
  exact .intro (keyless_located h) (keyless_located h) rfl hr hr

section

variable {is js is' js' : List Item} {ks ls ks' ls' : List String}

theorem twins_append (h : Twins is js ks ls) (h' : Twins is' js' ks' ls') :
    Twins (is ++ is') (js ++ js') (ks ++ ks') (ls ++ ls') := by
  obtain ⟨hi, hj, ho, hk, hl⟩ := h
  obtain ⟨hi', hj', ho', hk', hl'⟩ := h'
  refine .intro (located_append hi hi') (located_append hj hj') ?_ ?_ ?_
  · rw [List.map_append, List.map_append, ho, ho']
  · rw [List.map_append, ← hk, ← hk']
    exact List.filterMap_append
  · rw [List.map_append, ← hl, ← hl']
    exact List.filterMap_append

theorem twins_group (h : Twins is js ks ls) : Twins [.group is] [.group js] ks ls := by
  obtain ⟨hi, hj, ho, hk, hl⟩ := h
  have hr (s : List Spot) :
      raws (.other (.mark '(') :: (s ++ [.other (.mark ')')])) = raws s := by
    simp [raws, Spot.raw?, List.filterMap_cons]
  refine .intro (located_group hi) (located_group hj) ?_ ?_ ?_
  · simp [ho]
  · rw [hr, hk]
  · rw [hr, hl]

theorem twins_before (h : Twins is js ks ls) (hk : Keyless is') :
    Twins (is ++ is') (js ++ is') ks ls := by
  have ht := twins_append h (twins_keyless hk)
  rwa [List.append_nil, List.append_nil] at ht

theorem twins_behind (h : Twins is js ks ls) (hk : Keyless is') :
    Twins (is' ++ is) (is' ++ js) ks ls :=
  twins_append (twins_keyless hk) h

end

theorem twins_between {α β : Type} {f : α → List Item} {g : β → List Item} {k : α → List String}
    {l : β → List String} {separator : List Item} {as : List α} {bs : List β}
    (hs : Keyless separator)
    (h : List.Forall₂ (fun a b => Twins (f a) (g b) (k a) (l b)) as bs) :
    Twins (between separator (as.map f)) (between separator (bs.map g)) (as.flatMap k)
      (bs.flatMap l) := by
  induction h with
  | nil => exact twins_keyless (by decide : Keyless [])
  | cons h ht ih =>
    cases ht with
    | nil => simpa [between] using h
    | cons => exact twins_append (twins_before h hs) ih

theorem twins_spots {is js : List Item} {ks ls : List String} (h : Twins is js ks ls) :
    outside (spots is) = outside (spots js) ∧ raws (spots is) = ks.map String.toList ∧
      raws (spots js) = ls.map String.toList := by
  obtain ⟨hi, hj, ho, hk, hl⟩ := h
  rw [located_spots hi, located_spots hj, ← outside_hidden, ho, outside_hidden]
  exact ⟨rfl, hk, hl⟩

theorem reads_quotes {b : Bool} {sql : String} {is : List Item} {names : List String}
    (hr : Reads b sql is) (hk : raws (spots is) = names.map String.toList)
    (hn : ∀ name ∈ names, Unescaped name.toList) :
    Quotes sql (outside (spots is)) names := by
  have hs := read_reads hr
  have hw := read_weave hs
  rw [hk] at hw
  have hd : (names.map String.toList).map decodeLiteral = names.map String.toList := by
    rw [List.map_map]
    exact List.map_congr_left fun name hm => decode_literal_plain _ (hn name hm)
  exact ⟨⟨is, hs, rfl, by rw [hk, hd]⟩, hw⟩

theorem outside_others (ts : List Token) : outside (ts.map .other) = [spell ts] := by
  induction ts with
  | nil => rfl
  | cons t ts ih => simp [outside, ih, prepend, spell]

theorem keyless_quotes {b : Bool} {sql : String} {is : List Item} (hr : Reads b sql is)
    (h : Keyless is) : Quotes sql [sql.toList] [] := by
  have hs := located_spots (keyless_located h)
  have hk : raws (spots is) = ([] : List String).map String.toList := by
    simp [hs, raws, Spot.raw?, Function.comp_def]
  have hq := reads_quotes hr hk (by simp)
  have ht := lex_spell sql _ (read_tokens sql is (read_reads hr))
  rwa [hs, outside_others, ht] at hq

end CohortQuery.Sql
