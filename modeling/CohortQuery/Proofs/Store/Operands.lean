import CohortQuery.Proofs.Sql.Hole
import CohortQuery.Proofs.Store.Tables

/-!
# What the meaning of a predicate depends on

A test looks up the values of its own operands and nothing else, and a predicate has the value
that its leaves give it.
-/

set_option autoImplicit false

namespace CohortQuery

open Store (Engine Event Membership Tables)

namespace Sql

def AgreeOn (ps : List Placeholder) (params other : Params) : Prop :=
  ∀ p ∈ ps, params.get? p.name = other.get? p.name

section

variable {E : Engine} {params other : Params}

theorem agree_append {ps qs : List Placeholder} (h : AgreeOn (ps ++ qs) params other) :
    AgreeOn ps params other ∧ AgreeOn qs params other :=
  List.forall_mem_append.mp h

theorem agree_flat {α : Type} {ts : List α} {operands : α → List Placeholder} {t : α}
    (h : AgreeOn (ts.flatMap operands) params other) (ht : t ∈ ts) :
    AgreeOn (operands t) params other :=
  fun p hp => h p (List.mem_flatMap.mpr ⟨t, ht, hp⟩)

theorem read_agree {α : Type} {p : Placeholder} (h : AgreeOn [p] params other)
    (f : Value → Option α) : params.read f p = other.read f p := by
  rw [Params.read, Params.read, h p (by simp)]

theorem moment_agree {m : Moment} (h : AgreeOn m.operands params other) :
    m.at E params = m.at E other := by
  cases m with
  | now => rfl
  | bound p => rw [Moment.at, Moment.at, read_agree h]

theorem start_agree {s : Start} (h : AgreeOn s.operands params other) :
    s.at E params = s.at E other := by
  obtain ⟨m, days⟩ := s
  obtain ⟨hm, hd⟩ := agree_append h
  rw [Start.at, Start.at, moment_agree hm]
  cases days with
  | none => rfl
  | some p => simp only [read_agree hd]

theorem property_agree {t : PropertyTest} (h : AgreeOn t.operands params other)
    (json key : String) : t.truth E params json key = t.truth E other json key := by
  cases t with
  | isSet negated => rfl
  | text | flag | number | ordered | like =>
    simp only [PropertyTest.truth, read_agree h]

theorem row_agree {t : RowTest} (h : AgreeOn t.operands params other) (e : Event) :
    t.truth E params e = t.truth E other e := by
  cases t with
  | inProject => simp only [RowTest.truth, read_agree h]
  | equal column p => cases column <;> simp only [RowTest.truth, read_agree h]
  | notBefore s => simp only [RowTest.truth, start_agree h]
  | notAfter m => simp only [RowTest.truth, moment_agree h]
  | property l t => exact property_agree h _ _
  | notIdentify => rfl

theorem member_agree {t : RowTest} (h : AgreeOn t.operands params other) (m : Membership) :
    t.memberTruth params m = t.memberTruth other m := by
  cases t with
  | inProject => simp only [RowTest.memberTruth, read_agree h]
  | equal column p => cases column <;> simp only [RowTest.memberTruth, read_agree h]
  | notBefore | notAfter | property | notIdentify => rfl

theorem group_agree {t : GroupTest} (h : AgreeOn t.operands params other) (es : List Event) :
    t.truth E params es = t.truth E other es := by
  cases t with
  | count op p | periods period p => simp only [GroupTest.truth, read_agree h]
  | firstNotBefore s => simp only [GroupTest.truth, start_agree h]
  | firstNotAfter m => simp only [GroupTest.truth, moment_agree h]

end

section

variable {α : Type} {truth other : α → Truth} {fs : List (Formula α)}

theorem all_congr (h : ∀ f ∈ fs, f.value truth = f.value other) :
    (Formula.all fs).value truth = (Formula.all fs).value other := by
  induction fs with
  | nil => rfl
  | cons f fs ih =>
    obtain ⟨hf, ht⟩ := List.forall_mem_cons.mp h
    cases fs with
    | nil => exact hf
    | cons g gs => rw [Formula.all, Formula.value, Formula.value, hf, ih ht]

theorem any_congr (h : ∀ f ∈ fs, f.value truth = f.value other) :
    (Formula.any fs).value truth = (Formula.any fs).value other := by
  induction fs with
  | nil => rfl
  | cons f fs ih =>
    obtain ⟨hf, ht⟩ := List.forall_mem_cons.mp h
    cases fs with
    | nil => exact hf
    | cons g gs => rw [Formula.any, Formula.value, Formula.value, hf, ih ht]

theorem all_of_congr {ts : List α} (h : ∀ t ∈ ts, truth t = other t) :
    (allOf ts).value truth = (allOf ts).value other := by
  refine all_congr fun f hf => ?_
  obtain ⟨t, ht, rfl⟩ := List.mem_map.mp hf
  exact h t ht

end

theorem where_agree {rows : List RowTest} {params other : Params}
    (h : AgreeOn (rows.flatMap RowTest.operands) params other) (E : Engine) (tables : Tables) :
    eventsWhere E params tables (allOf rows) = eventsWhere E other tables (allOf rows) := by
  apply List.filter_congr
  intro e _
  rw [all_of_congr fun t ht => row_agree (agree_flat h ht) e]

theorem performed_agree {rows : List RowTest} {groups : List GroupTest} {params other : Params}
    (h : AgreeOn (Fragment.performed rows groups).operands params other) (E : Engine)
    (tables : Tables) : (Subquery.performed (allOf rows) (allOf groups)).ids E params tables =
      (Subquery.performed (allOf rows) (allOf groups)).ids E other tables := by
  obtain ⟨hr, hg⟩ := agree_append h
  rw [Subquery.ids, Subquery.ids, where_agree hr]
  apply List.filter_congr
  intro id _
  rw [all_of_congr fun t ht => group_agree (agree_flat hg ht) _]

theorem members_agree {rows : List RowTest} {params other : Params}
    (h : AgreeOn (rows.flatMap RowTest.operands) params other) (E : Engine) (tables : Tables) :
    (Subquery.members (allOf rows)).ids E params tables =
      (Subquery.members (allOf rows)).ids E other tables := by
  have hm : (tables.members.filter fun m =>
        (allOf rows).value (RowTest.memberTruth params m) = some true) =
      tables.members.filter fun m =>
        (allOf rows).value (RowTest.memberTruth other m) = some true := by
    apply List.filter_congr
    intro m _
    rw [all_of_congr fun t ht => member_agree (agree_flat h ht) m]
  rw [Subquery.ids, Subquery.ids, hm]

theorem fragment_agree {f : Fragment} {params other : Params}
    (h : AgreeOn f.operands params other) (E : Engine) (tables : Tables) (e : Event) :
    f.typed.value (Test.truth E params tables e) = f.typed.value (Test.truth E other tables e) := by
  cases f with
  | property l t => exact property_agree h _ _
  | performed rows groups =>
    rw [Fragment.typed, Formula.value, Formula.value, Test.truth, Test.truth, performed_agree h]
  | member rows negated =>
    have ha : Test.truth E params tables e (.among (.members (allOf rows))) =
        Test.truth E other tables e (.among (.members (allOf rows))) := by
      rw [Test.truth, Test.truth, members_agree h]
    cases negated with
    | false => exact ha
    | true => exact congrArg Truth.not ha

theorem typed_congr {p : Predicate} {truth other : Test → Truth}
    (h : ∀ f ∈ p.leaves, f.typed.value truth = f.typed.value other) :
    p.typed.value truth = p.typed.value other := by
  induction p using Tree.induct with
  | leaf f => exact h f (by simp [Tree.leaves, Tree.fold])
  | group j ps ih =>
    rw [Tree.leaves_group] at h
    have hg : ∀ g ∈ ps.map Predicate.typed, g.value truth = g.value other := by
      intro g hg
      obtain ⟨p, hp, rfl⟩ := List.mem_map.mp hg
      exact ih p hp fun f hf => h f (List.mem_flatMap.mpr ⟨p, hp, hf⟩)
    rw [Predicate.typed, Tree.fold_group]
    cases j with
    | and => exact all_congr hg
    | or => exact any_congr hg

end Sql

end CohortQuery
