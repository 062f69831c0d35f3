import Heredoc.Proofs.Text.Slices

/-!
# The order of the bytes of a text

A code point is spelled in digits of six bits, the front one in a lead byte that tells how many
follow. So of two code points the smaller one differs first in a smaller byte, and texts compared
byte by byte are in the order of their characters (`bytes_lt_iff`).
-/

namespace Heredoc.Text

/-! ## Lists in the order of their first difference -/

/-- Lists of one length have a first difference in front of whatever follows them. -/
theorem append_lt_append
    {front other : List UInt8} (less : front < other) (sameLength : front.length = other.length)
    (rest otherRest : List UInt8) :
    front ++ rest < other ++ otherRest := by
  induction front generalizing other with
  | nil =>
      rw [List.length_eq_zero_iff.mp sameLength.symm] at less
      exact absurd less (List.not_lt_nil [])
  | cons b more inductionHypothesis =>
      cases other with
      | nil => exact absurd less (List.not_lt_nil _)
      | cons first others =>
          rw [List.cons_append, List.cons_append, List.cons_lt_cons_iff]
          rcases List.cons_lt_cons_iff.mp less with smaller | ⟨rfl, later⟩
          · exact .inl smaller
          · exact .inr ⟨rfl, inductionHypothesis later (Nat.succ.inj sameLength)⟩

theorem ofNat_lt_ofNat {number other : Nat} (less : number < other) (small : other < 256) :
    UInt8.ofNat number < UInt8.ofNat other :=
  (UInt8.ofNat_lt_iff_lt (Nat.lt_trans less small) small).mpr less

/-! ## Numbers in digits of six bits -/

/-- What is left of a number in front of its last digits, so many of them. -/
def frontDigit : Nat → Nat → Nat
  | 0, number => number
  | count + 1, number => frontDigit count (number / 64)

/-- A number as a byte for its front, counted from `mark`, and one for each of its last digits. -/
def digitBytes (mark : Nat) : Nat → Nat → List UInt8
  | 0, number => [UInt8.ofNat (number + mark)]
  | count + 1, number => digitBytes mark count (number / 64) ++ [UInt8.ofNat (number % 64 + 128)]

theorem length_digitBytes (mark count number : Nat) :
    (digitBytes mark count number).length = count + 1 := by
  induction count generalizing number with
  | zero => rfl
  | succ count inductionHypothesis =>
      rw [digitBytes, List.length_append, inductionHypothesis, List.length_singleton]

theorem exists_digitBytes_eq_cons (mark count number : Nat) :
    ∃ rest,
      digitBytes mark count number = UInt8.ofNat (frontDigit count number + mark) :: rest := by
  induction count generalizing number with
  | zero => exact ⟨[], rfl⟩
  | succ count inductionHypothesis =>
      obtain ⟨rest, front⟩ := inductionHypothesis (number / 64)
      exact ⟨_, by rw [digitBytes, front, frontDigit, List.cons_append]⟩

theorem digitBytes_lt
    {mark count number other : Nat} (less : number < other)
    (small : frontDigit count other + mark < 256) :
    digitBytes mark count number < digitBytes mark count other := by
  induction count generalizing number other with
  | zero =>
      rw [frontDigit] at small
      exact List.cons_lt_cons_iff.mpr (.inl (ofNat_lt_ofNat (by omega) small))
  | succ count inductionHypothesis =>
      rw [digitBytes, digitBytes]
      rcases Nat.lt_or_ge (number / 64) (other / 64) with front | notFront
      · apply append_lt_append (inductionHypothesis front small)
        rw [length_digitBytes, length_digitBytes]
      · -- The fronts are the same, so the last digits differ.
        have sameFront : number / 64 = other / 64 := by omega
        have lastDigit : number % 64 + 128 < other % 64 + 128 := by omega
        rw [sameFront]
        exact List.append_left_lt
          (List.cons_lt_cons_iff.mpr (.inl (ofNat_lt_ofNat lastDigit (by omega))))

/-! ## Code points -/

/-- How many bytes follow the lead byte of a code point. -/
def followerCount (point : Nat) : Nat :=
  if point ≤ 127 then 0 else if point ≤ 2047 then 1 else if point ≤ 65535 then 2 else 3

/-- Where the lead bytes begin that so many bytes follow. -/
def leadMark : Nat → Nat
  | 0 => 0
  | 1 => 192
  | 2 => 224
  | _ => 240

/-- The lead byte of a code point. -/
def leadByte (point : Nat) : Nat :=
  frontDigit (followerCount point) point + leadMark (followerCount point)

theorem toNat_lt_of_char (c : Char) : c.toNat < 1114112 := by
  rcases c.valid with low | ⟨_, high⟩
  · exact Nat.lt_trans low (by decide)
  · exact high

theorem utf8EncodeChar_eq_digitBytes (c : Char) :
    String.utf8EncodeChar c =
      digitBytes (leadMark (followerCount c.toNat)) (followerCount c.toNat) c.toNat := by
  have bounded : c.val.toNat < 1114112 := toNat_lt_of_char c
  have twice (number : Nat) : number / 4096 = number / 64 / 64 := by omega
  have thrice (number : Nat) : number / 262144 = number / 64 / 64 / 64 := by omega
  simp only [String.utf8EncodeChar, Char.toNat, followerCount, twice, thrice]
  -- A front digit is small enough for the bits that its lead byte has left.
  by_cases one : c.val.toNat ≤ 127
  · simp only [if_pos one]
    rfl
  · by_cases two : c.val.toNat ≤ 2047
    · have front : c.val.toNat / 64 % 32 = c.val.toNat / 64 := by omega
      simp only [if_neg one, if_pos two, front]
      rfl
    · by_cases three : c.val.toNat ≤ 65535
      · have front : c.val.toNat / 64 / 64 % 16 = c.val.toNat / 64 / 64 := by omega
        simp only [if_neg one, if_neg two, if_pos three, front]
        rfl
      · have front : c.val.toNat / 64 / 64 / 64 % 8 = c.val.toNat / 64 / 64 / 64 := by omega
        simp only [if_neg one, if_neg two, if_neg three, front]
        rfl

theorem exists_utf8EncodeChar_eq_cons (c : Char) :
    ∃ rest, String.utf8EncodeChar c = UInt8.ofNat (leadByte c.toNat) :: rest := by
  rw [utf8EncodeChar_eq_digitBytes]
  exact exists_digitBytes_eq_cons _ _ _

theorem leadByte_lt {point : Nat} (bounded : point < 1114112) : leadByte point < 256 := by
  unfold leadByte followerCount
  split_ifs <;> simp only [frontDigit, leadMark] <;> omega

/-- More bytes follow a greater lead byte. -/
theorem leadByte_lt_of_followerCount_ne
    {point other : Nat} (less : point < other) (bounded : other < 1114112)
    (different : followerCount point ≠ followerCount other) :
    leadByte point < leadByte other := by
  unfold leadByte followerCount at *
  split_ifs at different ⊢ <;> simp only [frontDigit, leadMark] <;> omega

theorem utf8EncodeChar_append_lt
    {c other : Char} (less : c < other) (rest otherRest : List UInt8) :
    String.utf8EncodeChar c ++ rest < String.utf8EncodeChar other ++ otherRest := by
  have points : c.toNat < other.toNat := less
  have bounded := toNat_lt_of_char other
  by_cases sameCount : followerCount c.toNat = followerCount other.toNat
  · rw [utf8EncodeChar_eq_digitBytes, utf8EncodeChar_eq_digitBytes, sameCount]
    apply append_lt_append (digitBytes_lt points (leadByte_lt bounded))
    rw [length_digitBytes, length_digitBytes]
  · obtain ⟨digits, spelled⟩ := exists_utf8EncodeChar_eq_cons c
    obtain ⟨otherDigits, otherSpelled⟩ := exists_utf8EncodeChar_eq_cons other
    have further := leadByte_lt_of_followerCount_ne points bounded sameCount
    rw [spelled, otherSpelled, List.cons_append, List.cons_append, List.cons_lt_cons_iff]
    exact .inl (ofNat_lt_ofNat further (leadByte_lt bounded))

/-! ## Texts -/

theorem bytes_lt_of_lt {cs others : List Char} (less : cs < others) : bytes cs < bytes others := by
  induction cs generalizing others with
  | nil =>
      cases others with
      | nil => exact absurd less (List.not_lt_nil [])
      | cons other more =>
          obtain ⟨digits, spelled⟩ := exists_utf8EncodeChar_eq_cons other
          rw [bytes, bytes, List.flatMap_nil, List.flatMap_cons, spelled]
          exact List.nil_lt_cons _ _
  | cons c rest inductionHypothesis =>
      cases others with
      | nil => exact absurd less (List.not_lt_nil _)
      | cons other more =>
          rw [bytes, bytes, List.flatMap_cons, List.flatMap_cons]
          rcases List.cons_lt_cons_iff.mp less with smaller | ⟨rfl, later⟩
          · exact utf8EncodeChar_append_lt smaller _ _
          · exact List.append_left_lt (inductionHypothesis later)

/-- Texts compared byte by byte are in the order of their characters. -/
theorem bytes_lt_iff {cs others : List Char} : bytes cs < bytes others ↔ cs < others := by
  refine ⟨?_, bytes_lt_of_lt⟩
  intro less
  by_contra notLess
  rcases List.le_iff_lt_or_eq.mp (List.not_lt.mp notLess) with greater | rfl
  · exact List.lt_asymm less (bytes_lt_of_lt greater)
  · exact List.lt_irrefl _ less

end Heredoc.Text
