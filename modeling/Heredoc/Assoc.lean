/-!
# Association lists

A finite map as a list of key and value pairs in the order in which the keys were first put.
Main statements: what `get?` answers after `put`, after `erase` and after a change of all values.
-/

namespace Heredoc

/-- A finite map, written as its pairs. -/
abbrev Assoc (κ β : Type) := List (κ × β)

namespace Assoc

variable {κ β : Type} [DecidableEq κ]

/-- The value of the first pair with this key. -/
def get? : Assoc κ β → κ → Option β
  | [], _ => none
  | (k, v) :: rest, key => if k = key then some v else get? rest key

/-- Changes the value of a known key in place; a new key goes to the end. -/
def put : Assoc κ β → κ → β → Assoc κ β
  | [], key, value => [(key, value)]
  | (k, v) :: rest, key, value =>
      if k = key then (k, value) :: rest else (k, v) :: put rest key value

/-- Forgets a key; forgetting an unknown key changes nothing. -/
def erase : Assoc κ β → κ → Assoc κ β
  | [], _ => []
  | (k, v) :: rest, key => if k = key then erase rest key else (k, v) :: erase rest key

/-- Whether the key has a value. -/
def contains (pairs : Assoc κ β) (key : κ) : Bool :=
  (pairs.get? key).isSome

/-- The keys in order. -/
def keys (pairs : Assoc κ β) : List κ :=
  pairs.map Prod.fst

@[simp] theorem get?_nil (key : κ) : get? ([] : Assoc κ β) key = none := rfl

/-- A key that is not among the keys has no value. -/
theorem get?_eq_none {pairs : Assoc κ β} {key : κ} (h : key ∉ pairs.keys) :
    pairs.get? key = none := by
  induction pairs with
  | nil => rfl
  | cons pair rest ih =>
    obtain ⟨k, v⟩ := pair
    simp only [keys, List.map_cons, List.mem_cons, not_or] at h
    rw [get?, if_neg (Ne.symm h.1)]
    exact ih h.2

/-- After a put the key has the new value and every other key keeps its own. -/
theorem get?_put (pairs : Assoc κ β) (key other : κ) (value : β) :
    (pairs.put key value).get? other =
      if key = other then some value else pairs.get? other := by
  induction pairs with
  | nil => simp [put, get?]
  | cons pair rest ih =>
    obtain ⟨k, v⟩ := pair
    by_cases hk : k = key
    · subst hk
      by_cases ho : k = other <;> simp [put, get?, ho]
    · by_cases ho : k = other
      · subst ho
        simp [put, get?, hk, Ne.symm hk]
      · simp [put, get?, hk, ho, ih]

/-- After an erase the key has no value and every other key keeps its own. -/
theorem get?_erase (pairs : Assoc κ β) (key other : κ) :
    (pairs.erase key).get? other = if key = other then none else pairs.get? other := by
  induction pairs with
  | nil => simp [erase]
  | cons pair rest ih =>
    obtain ⟨k, v⟩ := pair
    by_cases hk : k = key
    · subst hk
      by_cases ho : k = other <;> simp [erase, get?, ho] at ih ⊢ <;> exact ih
    · by_cases ho : k = other
      · subst ho
        simp [erase, get?, hk, Ne.symm hk]
      · simp [erase, get?, hk, ho, ih]

/-- After a change of all values every key has its changed value. -/
theorem get?_map (change : β → β) (pairs : Assoc κ β) (key : κ) :
    get? (pairs.map fun (k, v) => (k, change v)) key = (pairs.get? key).map change := by
  induction pairs with
  | nil => rfl
  | cons pair rest ih =>
    obtain ⟨k, v⟩ := pair
    by_cases hk : k = key
    · simp [get?, hk]
    · simpa [get?, hk] using ih

end Assoc

end Heredoc
