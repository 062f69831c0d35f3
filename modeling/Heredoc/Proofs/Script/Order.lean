import Heredoc.Path
import Mathlib.Data.List.Nodup

/-!
# The order of paths

Paths are compared component by component, components by their kind and names by their bytes. Main
statements: this is a total order on components (`SystemPath.listedBefore_total`,
`SystemPath.listedBefore_trans`, `SystemPath.listedBefore_antisymm`), so that sorting gives paths
with distinct components in one order, however they came (`SystemPath.sort_eq_of_perm`).
-/

namespace Heredoc

namespace Component

variable {component other third : Component}

theorem before_iff :
    component.before other = true ↔
      component.rank < other.rank ∨
        ∃ name otherName,
          component = .name name ∧ other = .name otherName ∧ name.bytes < otherName.bytes := by
  cases component <;> cases other <;> simp [before, rank]

theorem eq_of_rank_eq (same : component.rank = other.rank) :
    component = other ∨ ∃ name otherName, component = .name name ∧ other = .name otherName := by
  cases component <;> cases other <;> simp [rank] at same ⊢

theorem not_before_self (component : Component) : ¬ component.before component = true := by
  rw [before_iff]
  rintro (lower | ⟨name, otherName, rfl, same, less⟩)
  · exact Nat.lt_irrefl _ lower
  · cases same
    exact List.lt_irrefl name.bytes less

theorem before_trans
    (first : component.before other = true) (second : other.before third = true) :
    component.before third = true := by
  rw [before_iff] at first second ⊢
  rcases first with lower | ⟨name, otherName, rfl, rfl, less⟩
  · rcases second with further | ⟨_, _, rfl, rfl, _⟩
    · exact .inl (Nat.lt_trans lower further)
    · exact .inl lower
  · rcases second with further | ⟨_, thirdName, same, rfl, further⟩
    · exact .inl further
    · cases same
      exact .inr ⟨name, thirdName, rfl, rfl, List.lt_trans less further⟩

theorem before_or_eq_or_before (component other : Component) :
    component.before other = true ∨ component = other ∨ other.before component = true := by
  rw [before_iff, before_iff]
  rcases Nat.lt_trichotomy component.rank other.rank with lower | same | higher
  · exact .inl (.inl lower)
  · rcases eq_of_rank_eq same with equal | ⟨⟨bytes⟩, ⟨otherBytes⟩, rfl, rfl⟩
    · exact .inr (.inl equal)
    · by_cases less : bytes < otherBytes
      · exact .inl (.inr ⟨_, _, rfl, rfl, less⟩)
      · by_cases greater : otherBytes < bytes
        · exact .inr (.inr (.inr ⟨_, _, rfl, rfl, greater⟩))
        · have equal : bytes = otherBytes :=
            List.le_antisymm (List.not_lt.mp greater) (List.not_lt.mp less)
          exact .inr (.inl (equal ▸ rfl))
  · exact .inr (.inr (.inl higher))

end Component

namespace SystemPath

/-! ## Lists of components -/

theorem listedBefore_cons_iff {first other : Component} {rest others : List Component} :
    listedBefore (first :: rest) (other :: others) = true ↔
      first.before other = true ∨ first = other ∧ listedBefore rest others = true := by
  rw [listedBefore, Bool.or_eq_true, Bool.and_eq_true, Bool.not_eq_true', ← Bool.not_eq_true]
  constructor
  · rintro (before | ⟨notAfter, restBefore⟩)
    · exact .inl before
    · rcases first.before_or_eq_or_before other with before | equal | after
      · exact .inl before
      · exact .inr ⟨equal, restBefore⟩
      · exact absurd after notAfter
  · rintro (before | ⟨rfl, restBefore⟩)
    · exact .inl before
    · exact .inr ⟨first.not_before_self, restBefore⟩

theorem listedBefore_total (components others : List Component) :
    listedBefore components others = true ∨ listedBefore others components = true := by
  induction components generalizing others with
  | nil => exact .inl (by cases others <;> rfl)
  | cons first rest inductionHypothesis =>
      cases others with
      | nil => exact .inr rfl
      | cons other others =>
          rw [listedBefore_cons_iff, listedBefore_cons_iff]
          rcases first.before_or_eq_or_before other with before | rfl | after
          · exact .inl (.inl before)
          · exact (inductionHypothesis others).imp (fun rest => .inr ⟨rfl, rest⟩)
              fun rest => .inr ⟨rfl, rest⟩
          · exact .inr (.inl after)

theorem listedBefore_trans
    {components others thirds : List Component}
    (first : listedBefore components others = true) (second : listedBefore others thirds = true) :
    listedBefore components thirds = true := by
  induction components generalizing others thirds with
  | nil => cases thirds <;> rfl
  | cons head rest inductionHypothesis =>
      cases others with
      | nil => cases first
      | cons other others =>
          cases thirds with
          | nil => cases second
          | cons third thirds =>
              rw [listedBefore_cons_iff] at first second ⊢
              rcases first with before | ⟨rfl, restBefore⟩
              · rcases second with further | ⟨rfl, _⟩
                · exact .inl (Component.before_trans before further)
                · exact .inl before
              · rcases second with further | ⟨rfl, restFurther⟩
                · exact .inl further
                · exact .inr ⟨rfl, inductionHypothesis restBefore restFurther⟩

theorem listedBefore_antisymm
    {components others : List Component}
    (first : listedBefore components others = true)
    (second : listedBefore others components = true) :
    components = others := by
  induction components generalizing others with
  | nil =>
      cases others with
      | nil => rfl
      | cons other others => cases second
  | cons head rest inductionHypothesis =>
      cases others with
      | nil => cases first
      | cons other others =>
          rw [listedBefore_cons_iff] at first second
          rcases first with before | ⟨rfl, restBefore⟩
          · rcases second with after | ⟨rfl, _⟩
            · exact absurd (Component.before_trans before after) head.not_before_self
            · exact absurd before (Component.not_before_self _)
          · rcases second with after | ⟨_, restAfter⟩
            · exact absurd after head.not_before_self
            · rw [inductionHypothesis restBefore restAfter]

/-! ## Sorting -/

theorem perm_sort (paths : List SystemPath) : (sort paths).Perm paths :=
  List.mergeSort_perm paths _

theorem pairwise_sort (paths : List SystemPath) :
    (sort paths).Pairwise fun path later =>
      listedBefore path.components later.components = true := by
  refine List.pairwise_mergeSort ?_ ?_ paths
  · intro path other third first second
    exact listedBefore_trans first second
  · intro path other
    exact Bool.or_eq_true_iff.mpr (listedBefore_total path.components other.components)

/-- Paths with distinct components are sorted without repetition. -/
theorem pairwise_sort_of_nodup
    {paths : List SystemPath} (distinct : (paths.map components).Nodup) :
    (sort paths).Pairwise fun path later =>
      listedBefore path.components later.components = true ∧
        path.components ≠ later.components := by
  have apart : ((sort paths).map components).Nodup :=
    ((perm_sort paths).map components).nodup_iff.mpr distinct
  exact (pairwise_sort paths).and (List.pairwise_map.mp apart)

/-- The order in which paths with distinct components came is lost when they are sorted. -/
theorem sort_eq_of_perm
    {paths others : List SystemPath} (same : paths.Perm others)
    (distinct : (paths.map components).Nodup) :
    sort paths = sort others := by
  have sorted : (sort paths).Perm (sort others) :=
    ((perm_sort paths).trans same).trans (perm_sort others).symm
  refine sorted.eq_of_pairwise ?_ (pairwise_sort paths) (pairwise_sort others)
  intro path other member otherMember before after
  have inPaths : path ∈ paths := (perm_sort paths).mem_iff.mp member
  have otherInPaths : other ∈ paths := same.mem_iff.mpr ((perm_sort others).mem_iff.mp otherMember)
  exact List.inj_on_of_nodup_map distinct inPaths otherInPaths (listedBefore_antisymm before after)

end SystemPath

end Heredoc
