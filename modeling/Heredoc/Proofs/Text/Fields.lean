import Heredoc.Text.Blank
import Heredoc.Text.Integer
import Heredoc.Text.Search

/-!
# Fields of a line

A field without the mark is cut off at the mark, a word is what remains of it between white space,
and an integer that is written in decimal is read back.
-/

namespace Heredoc.Text

theorem cutAt_append_cons
    {mark : Char} {field : List Char} (unmarked : mark ∉ field) (rest : List Char) :
    cutAt mark (field ++ mark :: rest) = (field, some rest) := by
  have other : ∀ c ∈ field, decide (c ≠ mark) = true := by
    intro c member
    exact decide_eq_true fun same => unmarked (same ▸ member)
  have taken : (field ++ mark :: rest).takeWhile (· ≠ mark) = field := by
    rw [List.takeWhile_append_of_pos other, List.takeWhile_cons_of_neg (by simp), List.append_nil]
  have left : (field ++ mark :: rest).dropWhile (· ≠ mark) = mark :: rest := by
    rw [List.dropWhile_append_of_pos other, List.dropWhile_cons_of_neg (by simp)]
  rw [cutAt, taken, left]

theorem trim_between
    {left word right : List Char}
    (leftBlank : ∀ c ∈ left, isBlank c = true)
    (rightBlank : ∀ c ∈ right, isBlank c = true)
    (nonempty : word ≠ []) (visible : ∀ c ∈ word, isBlank c = false) :
    trim (left ++ (word ++ right)) = word := by
  have stays {cs : List Char} (more : List Char)
      (csNonempty : cs ≠ []) (csVisible : ∀ c ∈ cs, isBlank c = false) :
      (cs ++ more).dropWhile isBlank = cs ++ more := by
    obtain ⟨c, others, rfl⟩ := List.exists_cons_of_ne_nil csNonempty
    rw [List.cons_append, List.dropWhile_cons_of_neg]
    rw [csVisible c List.mem_cons_self]
    exact Bool.false_ne_true
  have fromFront : (left ++ (word ++ right)).dropWhile isBlank = word ++ right := by
    rw [List.dropWhile_append_of_pos leftBlank, stays right nonempty visible]
  have fromBack : (word ++ right).reverse.dropWhile isBlank = word.reverse := by
    rw [List.reverse_append, List.dropWhile_append_of_pos
      (fun c member => rightBlank c (List.mem_reverse.mp member))]
    have kept := stays [] (List.reverse_ne_nil_iff.mpr nonempty)
      (fun c member => visible c (List.mem_reverse.mp member))
    rwa [List.append_nil] at kept
  rw [trim, trimEnd, fromFront, fromBack, List.reverse_reverse]

/-- The characters of ASCII that are printed, other than the space, are no white space. -/
theorem isBlank_of_isPrinted
    {c : Char} (low : 0x20 < c.toNat) (high : c.toNat < 0x7F) :
    isBlank c = false := by
  simp only [isBlank, blankIntervals, List.any_cons, List.any_nil, Bool.or_false,
    Bool.or_eq_false_iff, Bool.and_eq_false_iff, decide_eq_false_iff_not]
  omega

/-! ## Integers in decimal -/

theorem toList_toString_ofNat (value : Nat) :
    (toString (Int.ofNat value)).toList = Nat.toDigits 10 value :=
  Nat.toList_repr

theorem toList_toString_negSucc (value : Nat) :
    (toString (Int.negSucc value)).toList = '-' :: Nat.toDigits 10 (value + 1) := by
  have written : toString (Int.negSucc value) = "-" ++ (value + 1).repr := rfl
  rw [written, String.toList_append, Nat.toList_repr]
  rfl

theorem isDigit_of_mem_toDigits
    {value : Nat} {c : Char} (member : c ∈ Nat.toDigits 10 value) :
    c.isDigit = true :=
  Nat.isDigit_of_mem_toDigits (by decide) (by decide) member

/-- An integer is written with digits and perhaps a minus sign. -/
theorem eq_minus_or_isDigit_of_mem
    {value : Int} {c : Char} (member : c ∈ (toString value).toList) :
    c = '-' ∨ c.isDigit = true := by
  cases value with
  | ofNat natural =>
      rw [toList_toString_ofNat] at member
      exact .inr (isDigit_of_mem_toDigits member)
  | negSucc natural =>
      rw [toList_toString_negSucc] at member
      rcases List.mem_cons.mp member with sign | digit
      · exact .inl sign
      · exact .inr (isDigit_of_mem_toDigits digit)

theorem toString_int_ne_nil (value : Int) : (toString value).toList ≠ [] := by
  cases value with
  | ofNat natural =>
      rw [toList_toString_ofNat]
      exact Nat.toDigits_ne_nil
  | negSucc natural =>
      rw [toList_toString_negSucc]
      exact List.cons_ne_nil _ _

/-- There is no white space around an integer. -/
theorem trim_toString_int (value : Int) :
    trim (toString value).toList = (toString value).toList := by
  have visible : ∀ c ∈ (toString value).toList, isBlank c = false := by
    intro c member
    rcases eq_minus_or_isDigit_of_mem member with rfl | digit
    · decide
    · have low : 48 ≤ c.toNat := (Char.isDigit_iff_toNat.mp digit).1
      have high : c.toNat ≤ 57 := (Char.isDigit_iff_toNat.mp digit).2
      exact isBlank_of_isPrinted (by omega) (by omega)
  have whole : trim ([] ++ ((toString value).toList ++ [])) = (toString value).toList :=
    trim_between (by simp) (by simp) (toString_int_ne_nil value) visible
  rwa [List.nil_append, List.append_nil] at whole

theorem readNatural?_toDigits (value : Nat) :
    readNatural? (Nat.toDigits 10 value) = some value := by
  have digits : (Nat.toDigits 10 value).all Char.isDigit = true :=
    List.all_eq_true.mpr fun _ member => isDigit_of_mem_toDigits member
  have nonempty : (Nat.toDigits 10 value).isEmpty = false :=
    List.isEmpty_eq_false_iff.mpr Nat.toDigits_ne_nil
  have sum :
      (Nat.toDigits 10 value).foldl (fun n c => n * 10 + (c.toNat - '0'.toNat)) 0 = value :=
    calc
      _ = Nat.ofDigitChars 10 (Nat.toDigits 10 value) 0 := by
        simp only [Nat.ofDigitChars, Nat.mul_comm]
      _ = value := Nat.ofDigitChars_ten_toDigits
  simp only [readNatural?, nonempty, digits, sum, Bool.not_true, Bool.or_false,
    Bool.false_eq_true, if_false]

/-- An integer between the bounds is read back. -/
theorem readInteger?_toString
    {low high value : Int} (lowest : low ≤ value) (highest : value ≤ high) :
    readInteger? low high (toString value).toList = some value := by
  have inside : (decide (low ≤ value) && decide (value ≤ high)) = true := by
    rw [decide_eq_true lowest, decide_eq_true highest]
    rfl
  cases value with
  | ofNat natural =>
      rw [toList_toString_ofNat]
      obtain ⟨first, others, digits⟩ := List.exists_cons_of_ne_nil (@Nat.toDigits_ne_nil natural 10)
      have digit : first.isDigit = true :=
        isDigit_of_mem_toDigits (digits ▸ List.mem_cons_self)
      have notMinus : first ≠ '-' := fun same => absurd (same ▸ digit) (by decide)
      have notPlus : first ≠ '+' := fun same => absurd (same ▸ digit) (by decide)
      have read := readNatural?_toDigits natural
      rw [digits] at read ⊢
      unfold readInteger?
      split
      · rename_i same
        exact absurd (List.cons.inj same).1 notMinus
      · rename_i same
        exact absurd (List.cons.inj same).1 notPlus
      · rw [read]
        exact Option.filter_some_pos inside
  | negSucc natural =>
      rw [toList_toString_negSucc]
      have read := readNatural?_toDigits (natural + 1)
      simp only [readInteger?, read]
      exact Option.filter_some_pos inside

end Heredoc.Text
