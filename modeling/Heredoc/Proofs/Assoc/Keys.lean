import Heredoc.Assoc
import Mathlib.Data.List.Nodup

/-!
# The keys of finite maps

A map has a value for exactly its keys. A put adds a new key at the end or keeps all keys as they
are, so that keys that are distinct stay so; an erase takes the key away.
-/

namespace Heredoc

namespace Assoc

variable {κ β : Type} [DecidableEq κ] {pairs : Assoc κ β} {key : κ} {value : β}

theorem mem_of_get? (found : pairs.get? key = some value) : (key, value) ∈ pairs := by
  induction pairs with
  | nil => cases found
  | cons pair rest inductionHypothesis =>
      obtain ⟨first, firstValue⟩ := pair
      rw [get?] at found
      split at found
      · rename_i same
        cases found
        rw [same]
        exact List.mem_cons_self
      · exact List.mem_cons_of_mem _ (inductionHypothesis found)

theorem get?_of_mem (distinct : pairs.keys.Nodup) (member : (key, value) ∈ pairs) :
    pairs.get? key = some value := by
  induction pairs with
  | nil => exact absurd member List.not_mem_nil
  | cons pair rest inductionHypothesis =>
      obtain ⟨first, firstValue⟩ := pair
      obtain ⟨fresh, restDistinct⟩ := List.nodup_cons.mp distinct
      rcases List.mem_cons.mp member with same | later
      · cases same
        rw [get?, if_pos rfl]
      · have present : key ∈ keys rest := List.mem_map_of_mem later
        have other : first ≠ key := fun same => fresh (same ▸ present)
        rw [get?, if_neg other]
        exact inductionHypothesis restDistinct later

/-- The keys are what has a value. -/
theorem mem_keys_iff : key ∈ keys pairs ↔ ∃ value, pairs.get? key = some value := by
  constructor
  · intro member
    induction pairs with
    | nil => cases member
    | cons pair rest inductionHypothesis =>
        obtain ⟨first, firstValue⟩ := pair
        rw [get?]
        by_cases same : first = key
        · exact ⟨firstValue, if_pos same⟩
        · rw [if_neg same]
          exact inductionHypothesis ((List.mem_cons.mp member).resolve_left (Ne.symm same))
  · rintro ⟨value, found⟩
    exact List.mem_map_of_mem (mem_of_get? found)

theorem get?_eq_some_iff (distinct : pairs.keys.Nodup) :
    pairs.get? key = some value ↔ (key, value) ∈ pairs :=
  ⟨mem_of_get?, get?_of_mem distinct⟩

/-- The order of the pairs does not count if their keys are distinct. -/
theorem get?_eq_of_perm
    {others : Assoc κ β} (distinct : pairs.keys.Nodup) (same : others.Perm pairs) (key : κ) :
    others.get? key = pairs.get? key := by
  have othersDistinct : others.keys.Nodup := (same.map Prod.fst).nodup_iff.mpr distinct
  apply Option.ext
  intro value
  rw [get?_eq_some_iff othersDistinct, get?_eq_some_iff distinct]
  exact same.mem_iff

/-! ## Writing -/

theorem keys_put_of_mem (member : key ∈ keys pairs) (value : β) :
    keys (pairs.put key value) = keys pairs := by
  induction pairs with
  | nil => cases member
  | cons pair rest inductionHypothesis =>
      obtain ⟨first, firstValue⟩ := pair
      rw [put]
      split
      · rfl
      · rename_i other
        have later : key ∈ keys rest := (List.mem_cons.mp member).resolve_left (Ne.symm other)
        exact congrArg (first :: ·) (inductionHypothesis later)

theorem keys_put_of_not_mem (absent : key ∉ keys pairs) (value : β) :
    keys (pairs.put key value) = keys pairs ++ [key] := by
  induction pairs with
  | nil => rfl
  | cons pair rest inductionHypothesis =>
      obtain ⟨first, firstValue⟩ := pair
      have other : first ≠ key := fun same => absent (same ▸ List.mem_cons_self)
      rw [put, if_neg other]
      exact congrArg (first :: ·)
        (inductionHypothesis fun later => absent (List.mem_cons_of_mem _ later))

theorem nodup_keys_put (distinct : (keys pairs).Nodup) (key : κ) (value : β) :
    (keys (pairs.put key value)).Nodup := by
  by_cases member : key ∈ keys pairs
  · rw [keys_put_of_mem member]
    exact distinct
  · rw [keys_put_of_not_mem member, ← List.concat_eq_append]
    exact distinct.concat member

theorem keys_erase (pairs : Assoc κ β) (key : κ) :
    keys (pairs.erase key) = (keys pairs).filter (· ≠ key) := by
  induction pairs with
  | nil => rfl
  | cons pair rest inductionHypothesis =>
      obtain ⟨first, value⟩ := pair
      simp only [keys, List.map_cons] at inductionHypothesis ⊢
      rw [erase]
      by_cases same : first = key
      · rw [if_pos same, inductionHypothesis, List.filter_cons_of_neg (by simpa using same)]
      · rw [if_neg same, List.map_cons, inductionHypothesis,
          List.filter_cons_of_pos (by simpa using same)]

end Assoc

end Heredoc
