import Heredoc.Proofs.Assoc.Keys
import Heredoc.Proofs.Text.ByteOrder
import Heredoc.Tag

/-!
# The order of tags

Tags are listed by their size in bytes, the longest first, and tags of one size in the order of
their bytes. Main statements: this is a strict total order (`TagTable.Precedes`), so that a set of
tags has one list in this order (`TagTable.eq_of_pairwise_precedes`), and sorting gives that list
from any enumeration of the tags (`TagTable.mergeSort_eq_tags`).
-/

namespace Heredoc

namespace TagTable

open Text (bytes)

/-! ## The comparison -/

theorem le_of_listedBefore {tag other : String} (listed : listedBefore tag other = true) :
    other.utf8ByteSize ≤ tag.utf8ByteSize := by
  rw [listedBefore] at listed
  split at listed
  · omega
  · exact Nat.le_of_lt (of_decide_eq_true listed)

theorem listedBefore_total (tag other : String) :
    (listedBefore tag other || listedBefore other tag) = true := by
  rw [Bool.or_eq_true, listedBefore, listedBefore]
  by_cases same : tag.utf8ByteSize = other.utf8ByteSize
  · rw [if_pos same, if_pos same.symm, decide_eq_true_eq, decide_eq_true_eq]
    exact String.le_total tag other
  · rw [if_neg same, if_neg (Ne.symm same), decide_eq_true_eq, decide_eq_true_eq]
    omega

theorem listedBefore_trans
    (tag other third : String)
    (first : listedBefore tag other = true) (second : listedBefore other third = true) :
    listedBefore tag third = true := by
  have longer := le_of_listedBefore first
  have shorter := le_of_listedBefore second
  rw [listedBefore]
  by_cases same : tag.utf8ByteSize = third.utf8ByteSize
  · -- All three take as many bytes.
    have firstSame : tag.utf8ByteSize = other.utf8ByteSize := by omega
    have secondSame : other.utf8ByteSize = third.utf8ByteSize := by omega
    rw [listedBefore, if_pos firstSame, decide_eq_true_eq] at first
    rw [listedBefore, if_pos secondSame, decide_eq_true_eq] at second
    rw [if_pos same, decide_eq_true_eq]
    exact String.le_trans first second
  · rw [if_neg same, decide_eq_true_eq]
    omega

/-! ## The order -/

/-- The tag takes more bytes than the other one, or as many and its bytes come first. -/
def Precedes (tag other : String) : Prop :=
  other.utf8ByteSize < tag.utf8ByteSize ∨
    tag.utf8ByteSize = other.utf8ByteSize ∧ bytes tag.toList < bytes other.toList

theorem Precedes.irrefl (tag : String) : ¬ Precedes tag tag := by
  rintro (longer | ⟨_, before⟩)
  · exact Nat.lt_irrefl _ longer
  · exact List.lt_irrefl _ before

theorem Precedes.asymm {tag other : String} (before : Precedes tag other) :
    ¬ Precedes other tag := by
  rcases before with longer | ⟨same, before⟩
  · rintro (shorter | ⟨same, _⟩) <;> omega
  · rintro (shorter | ⟨_, after⟩)
    · omega
    · exact List.lt_asymm before after

theorem Precedes.ne {tag other : String} (before : Precedes tag other) : tag ≠ other := by
  rintro rfl
  exact Precedes.irrefl tag before

/-- Of two tags one comes first. -/
theorem precedes_or_eq_or_precedes (tag other : String) :
    Precedes tag other ∨ tag = other ∨ Precedes other tag := by
  rcases Nat.lt_trichotomy tag.utf8ByteSize other.utf8ByteSize with shorter | same | longer
  · exact .inr (.inr (.inl shorter))
  · by_cases before : bytes tag.toList < bytes other.toList
    · exact .inl (.inr ⟨same, before⟩)
    · rcases List.le_iff_lt_or_eq.mp (List.not_lt.mp before) with after | equal
      · exact .inr (.inr (.inr ⟨same.symm, after⟩))
      · exact .inr (.inl (String.toList_inj.mp (Text.bytes_inj.mp equal.symm)))
  · exact .inl (.inl longer)

/-- What is compared is this order, by characters. -/
theorem precedes_of_listedBefore
    {tag other : String} (listed : listedBefore tag other = true) (different : tag ≠ other) :
    Precedes tag other := by
  rcases precedes_or_eq_or_precedes tag other with before | equal | longer | ⟨same, after⟩
  · exact before
  · exact absurd equal different
  · exact absurd (le_of_listedBefore listed) (Nat.not_le_of_lt longer)
  · rw [listedBefore, if_pos same.symm, decide_eq_true_eq] at listed
    rw [Text.bytes_lt_iff, ← String.lt_iff] at after
    exact absurd after (String.not_lt.mpr listed)

/-! ## Lists in this order -/

theorem nodup_of_pairwise_precedes {listed : List String} (ordered : listed.Pairwise Precedes) :
    listed.Nodup :=
  ordered.imp Precedes.ne

/-- A set of tags has one list in this order. -/
theorem eq_of_pairwise_precedes
    {listed others : List String}
    (ordered : listed.Pairwise Precedes) (otherOrdered : others.Pairwise Precedes)
    (same : ∀ tag, tag ∈ listed ↔ tag ∈ others) :
    listed = others := by
  have shuffled : listed.Perm others :=
    (List.perm_ext_iff_of_nodup (nodup_of_pairwise_precedes ordered)
      (nodup_of_pairwise_precedes otherOrdered)).mpr same
  refine shuffled.eq_of_pairwise ?_ ordered otherOrdered
  intro tag other _ _ before after
  exact absurd after before.asymm

theorem pairwise_mergeSort (listed : List String) :
    (listed.mergeSort listedBefore).Pairwise fun tag other => listedBefore tag other = true :=
  List.pairwise_mergeSort listedBefore_trans listedBefore_total listed

theorem pairwise_tags (table : TagTable) :
    table.tags.Pairwise fun tag other => listedBefore tag other = true :=
  pairwise_mergeSort table.entries.keys

theorem pairwise_precedes_mergeSort {listed : List String} (distinct : listed.Nodup) :
    (listed.mergeSort listedBefore).Pairwise Precedes := by
  have sortedDistinct : (listed.mergeSort listedBefore).Nodup :=
    (List.mergeSort_perm listed listedBefore).nodup_iff.mpr distinct
  exact (pairwise_mergeSort listed).imp₂ (fun _ _ => precedes_of_listedBefore) sortedDistinct

/-! ## The tags of a table -/

variable {table : TagTable}

theorem mem_tags_iff {tag : String} : tag ∈ table.tags ↔ table.contains tag = true := by
  rw [tags, List.mem_mergeSort, Assoc.mem_keys_iff, contains, Assoc.contains,
    Option.isSome_iff_exists]

theorem mergeSort_eq_tags
    (distinct : table.entries.keys.Nodup) {listed : List String}
    (enumerated : listed.Perm table.entries.keys) :
    listed.mergeSort listedBefore = table.tags := by
  have listedDistinct : listed.Nodup := enumerated.nodup_iff.mpr distinct
  apply eq_of_pairwise_precedes (pairwise_precedes_mergeSort listedDistinct)
    (pairwise_precedes_mergeSort distinct)
  intro tag
  rw [List.mem_mergeSort, List.mem_mergeSort, enumerated.mem_iff]

end TagTable

end Heredoc
