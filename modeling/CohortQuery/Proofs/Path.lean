import CohortQuery.Path
import CohortQuery.Proofs.Text.Trim

/-!
# Where expanded paths lie

An expanded path is absolute, and to expand it once more changes nothing. What stands behind `~/`
lies under the home directory, unless it begins with a separator itself: then it is an absolute
path, which stands for itself wherever it lies.
-/

set_option autoImplicit false

namespace CohortQuery.Path

structure Settled (p : List Char) : Prop where
  absolute : isAbsolute p = true
  back : ∀ c ∈ p.getLast?, Text.isBlank c = false

structure Places.Proper (places : Places) : Prop where
  home : Settled places.home.toList
  working : Settled places.working.toList
  inside : places.home.toList.getLast? ≠ some '/'

/-- The path is the directory or begins with the directory and a separator. -/
def Under (directory path : List Char) : Prop :=
  path = directory ∨ directory ++ ['/'] <+: path

instance (directory path : List Char) : Decidable (Under directory path) :=
  inferInstanceAs (Decidable (_ ∨ _))

theorem absolute_cons {p : List Char} (h : isAbsolute p = true) : ∃ r, p = '/' :: r :=
  List.head?_eq_some_iff.mp (of_decide_eq_true h)

theorem settled_trimmed {p : List Char} (h : Settled p) : Text.Trimmed p := by
  refine ⟨?_, h.back⟩
  obtain ⟨r, rfl⟩ := absolute_cons h.absolute
  rintro c ⟨⟩
  decide

theorem expand_settled (home working : List Char) {p : List Char} (h : Settled p) :
    expandChars home working p = p := by
  have habsolute := h.absolute
  obtain ⟨r, rfl⟩ := absolute_cons h.absolute
  rw [expandChars, Text.trim_trimmed (settled_trimmed h)]
  exact if_pos habsolute

theorem append_back {p q : List Char} (hp : ∀ c ∈ p.getLast?, Text.isBlank c = false)
    (hq : ∀ c ∈ q.getLast?, Text.isBlank c = false) :
    ∀ c ∈ (p ++ q).getLast?, Text.isBlank c = false := by
  intro c hc
  rw [List.getLast?_append, Option.mem_def, Option.or_eq_some_iff] at hc
  exact hc.elim (hq c) fun hc => hp c hc.2

theorem join_settled {base rest : List Char} (hb : Settled base)
    (hr : ∀ c ∈ rest.getLast?, Text.isBlank c = false) : Settled (join base rest) := by
  obtain ⟨b, rfl⟩ := absolute_cons hb.absolute
  unfold join
  split
  next habsolute => exact ⟨habsolute, hr⟩
  next =>
    split
    next => exact ⟨rfl, append_back hb.back hr⟩
    next =>
      have hseparator : ∀ c ∈ ['/'].getLast?, Text.isBlank c = false := by
        rintro c ⟨⟩
        decide
      exact ⟨rfl, append_back hb.back (append_back hseparator hr)⟩

theorem behind_back {a b : Char} {rest : List Char}
    (h : ∀ c ∈ (a :: b :: rest).getLast?, Text.isBlank c = false) :
    ∀ c ∈ rest.getLast?, Text.isBlank c = false := by
  intro c hc
  rw [List.getLast?_cons_cons, List.getLast?_cons] at h
  refine h c ?_
  rw [Option.mem_def.mp hc]
  rfl

theorem home_back {home p : List Char} (hh : Settled home)
    (hp : ∀ c ∈ p.getLast?, Text.isBlank c = false) :
    ∀ c ∈ (atHome home p).getLast?, Text.isBlank c = false := by
  obtain ⟨r, rfl⟩ := absolute_cons hh.absolute
  unfold atHome
  simp only [List.isEmpty_cons, Bool.false_eq_true, if_false]
  split
  next =>
    rintro c ⟨⟩
    decide
  next => exact hh.back
  next => exact (join_settled hh (behind_back hp)).back
  next => exact hp

theorem expanded_settled {home working : List Char} (hh : Settled home) (hw : Settled working)
    (p : List Char) : Settled (expandChars home working p) :=
  join_settled hw (home_back hh (Text.trimmed_trim p).back)

theorem join_under {home : List Char} (hh : Settled home) (hi : home.getLast? ≠ some '/')
    (rest : List Char) :
    Under home (join home rest) ↔ (isAbsolute rest = true → Under home rest) := by
  obtain ⟨r, rfl⟩ := absolute_cons hh.absolute
  unfold join
  split
  next habsolute => simp [habsolute]
  next hrelative =>
    rw [if_neg (by simpa using hi)]
    refine iff_of_true (.inr ?_) fun habsolute => absurd habsolute hrelative
    exact ⟨rest, by simp⟩

theorem expand_home {home working p rest : List Char} (hh : Settled home)
    (hp : Text.trimChars p = '~' :: '/' :: rest) :
    expandChars home working p = join home rest := by
  have hback := (Text.trimmed_trim p).back
  rw [hp] at hback
  have hj := (join_settled hh (behind_back hback)).absolute
  obtain ⟨r, rfl⟩ := absolute_cons hh.absolute
  rw [expandChars, hp]
  exact if_pos hj

/-- An expanded path is absolute and stands for itself. One behind `~/` is under the home
directory just if it is not absolute there or names a place under the home directory itself. -/
theorem home_kept {places : Places} (h : places.Proper) (p : String) :
    isAbsolute (expand places p).toList = true ∧
    expand places (expand places p) = expand places p ∧
    ∀ rest, Text.trimChars p.toList = '~' :: '/' :: rest →
      (isAbsolute rest = true → (expand places p).toList = rest) ∧
      (Under places.home.toList (expand places p).toList ↔
        (isAbsolute rest = true → Under places.home.toList rest)) := by
  have hs := expanded_settled h.home h.working p.toList
  refine ⟨?_, ?_, fun rest hp => ?_⟩
  · rw [expand, String.toList_ofList]
    exact hs.absolute
  · rw [expand, expand, String.toList_ofList, expand_settled _ _ hs]
  · rw [expand, String.toList_ofList, expand_home h.home hp]
    exact ⟨fun habsolute => if_pos habsolute, join_under h.home h.inside rest⟩

theorem tester_proper : Places.Proper ⟨"/home/tester", "/"⟩ := by
  have hhome : "/home/tester".toList.getLast? = some 'r' := by decide
  have hworking : "/".toList.getLast? = some '/' := by decide
  refine ⟨⟨rfl, ?_⟩, ⟨rfl, ?_⟩, ?_⟩
  · rw [hhome]
    rintro c ⟨⟩
    decide
  · rw [hworking]
    rintro c ⟨⟩
    decide
  · rw [hhome]
    decide

theorem settings_kept :
    let places : Places := ⟨"/home/tester", "/"⟩
    let path := expand places " ~/.cohortql/cohortql.json\n"
    places.Proper ∧ path = "/home/tester/.cohortql/cohortql.json" ∧
    isAbsolute path.toList = true ∧ expand places path = path ∧
    Under places.home.toList path.toList := by
  obtain ⟨absolute, again, below⟩ := home_kept tester_proper " ~/.cohortql/cohortql.json\n"
  refine ⟨tester_proper, by decide, absolute, again, ?_⟩
  exact (below ".cohortql/cohortql.json".toList (by decide)).2.mpr (by decide)

/-- With a second separator the path leaves the home directory. -/
theorem doubled_separator :
    let places : Places := ⟨"/home/tester", "/"⟩
    places.Proper ∧ Text.trimChars "~//etc/passwd".toList = '~' :: '/' :: "/etc/passwd".toList ∧
    expand places "~//etc/passwd" = "/etc/passwd" ∧
    ¬ Under places.home.toList (expand places "~//etc/passwd").toList :=
  ⟨tester_proper, by decide, by decide, by decide⟩

end CohortQuery.Path
