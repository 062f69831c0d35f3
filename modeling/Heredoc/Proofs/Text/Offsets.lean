import Heredoc.Proofs.Text.Slices
import Heredoc.Text.Blank

/-!
# The offset, the line and the position of a place in a text

A place in a text is given by what stands in front of it. Its line and byte column are read off
that part (`lineColumn_byteLength`) and lead back to the place (`offsetOf_lastLine`), and different
places of a text that is not too long have different positions (`placeAfter_append_ne`).
-/

namespace Heredoc.Text

theorem decide_ne_of_not_mem
    {α : Type} [DecidableEq α] {mark : α} {items : List α} (absent : mark ∉ items) :
    ∀ other ∈ items, decide (other ≠ mark) = true := by
  intro other member
  rw [decide_eq_true_eq]
  rintro rfl
  exact absent member

/-! ## Characters at offsets -/

theorem charAt?_byteLength_append (left right : List Char) :
    charAt? (byteLength left) (left ++ right) = right.head? := by
  induction left with
  | nil =>
      cases right with
      | nil => rfl
      | cons c more => rfl
  | cons c rest inductionHypothesis =>
      rw [List.cons_append, byteLength, charAt?_cons_of_le (Nat.le_add_right _ _),
        Nat.add_sub_cancel_left, inductionHypothesis]

theorem byteLength_concat {c : Char} (ascii : c.utf8Size = 1) (left : List Char) :
    byteLength (left ++ [c]) = byteLength left + 1 := by
  rw [byteLength_append, byteLength, ascii]
  rfl

theorem charAt?_append_add_one
    {c : Char} (ascii : c.utf8Size = 1) (left right : List Char) :
    charAt? (byteLength left + 1) (left ++ c :: right) = right.head? := by
  have shown := charAt?_byteLength_append (left ++ [c]) right
  rwa [byteLength_concat ascii, List.append_assoc] at shown

/-! ## Lines and columns -/

theorem byteLength_eq_lastLineStart_add (cs : List Char) :
    byteLength cs = lastLineStart cs + byteLength (lastLine cs) := by
  obtain ⟨left, cut⟩ := exists_cut?_lastLineStart cs
  obtain ⟨whole, total⟩ := cut?_eq_some_iff.mp cut
  calc
    byteLength cs = byteLength (left ++ lastLine cs) := congrArg byteLength whole
    _ = lastLineStart cs + byteLength (lastLine cs) := by
      rw [byteLength_append, total]

theorem lineColumn_byteLength (left right : List Char) :
    lineColumn (left ++ right) (byteLength left) =
      (left.count '\n' + 1, byteLength (lastLine left)) := by
  have total := byteLength_eq_lastLineStart_add left
  rw [lineColumn, fitting_byteLength_append]
  exact Prod.ext rfl (by dsimp only; omega)

theorem lineStart_append_newline (kept right : List Char) :
    lineStart (kept.count '\n' + 1) (kept ++ '\n' :: right) = byteLength kept + 1 := by
  induction kept with
  | nil =>
      rw [List.nil_append, List.count_nil, lineStart, if_pos rfl, lineStart]
      rfl
  | cons c rest inductionHypothesis =>
      rw [List.cons_append, lineStart, byteLength, Nat.add_assoc, ← inductionHypothesis]
      by_cases newline : c = '\n'
      · subst c
        rw [if_pos rfl, List.count_cons_self]
      · rw [if_neg newline, List.count_cons_of_ne newline]

theorem lineStart_count (left right : List Char) :
    lineStart (left.count '\n') (left ++ right) = lastLineStart left := by
  rw [lastLineStart]
  cases last : beforeLast? '\n' left with
  | none =>
      have unbroken := not_mem_afterLast '\n' left
      rw [afterLast_of_beforeLast?_eq_none last] at unbroken
      rw [List.count_eq_zero_of_not_mem unbroken, lineStart]
  | some kept =>
      have whole := eq_append_of_beforeLast? last
      have feeds : left.count '\n' = kept.count '\n' + 1 := by
        rw [whole, List.count_append, List.count_cons_self,
          List.count_eq_zero_of_not_mem (not_mem_afterLast '\n' left)]
      have joined : left ++ right = kept ++ '\n' :: (afterLast '\n' left ++ right) :=
        calc
          left ++ right = (kept ++ '\n' :: afterLast '\n' left) ++ right :=
            congrArg (· ++ right) whole
          _ = kept ++ '\n' :: (afterLast '\n' left ++ right) := by
            rw [List.append_assoc, List.cons_append]
      rw [feeds, joined, lineStart_append_newline]

/-- A column on the line of a place, up to the place itself, is not moved. -/
theorem offsetOf_lastLine
    {left : List Char} {column : Nat}
    (reached : column ≤ byteLength (lastLine left)) (right : List Char) :
    offsetOf (left ++ right) (left.count '\n') column = lastLineStart left + column := by
  obtain ⟨front, cut⟩ := exists_cut?_lastLineStart left
  obtain ⟨whole, total⟩ := cut?_eq_some_iff.mp cut
  have unbroken : ∀ c ∈ lastLine left, decide (c ≠ '\n') = true :=
    decide_ne_of_not_mem (not_mem_afterLast '\n' left)
  have toEnd :
      bytesToLineEnd (left ++ right) (lastLineStart left) =
        byteLength (lastLine left) + byteLength (right.takeWhile (· ≠ '\n')) := by
    have joined : left ++ right = front ++ (lastLine left ++ right) := by
      rw [← List.append_assoc, ← whole]
    rw [bytesToLineEnd, joined, ← total, fitting_byteLength_append, List.drop_left,
      List.takeWhile_append_of_pos unbroken, byteLength_append]
  rw [offsetOf, lineStart_count, toEnd]
  omega

/-! ## Positions of places -/

/-- The position of the place after a text. -/
def placeAfter (left : List Char) : Position :=
  ⟨clamp32 (left.count '\n'), clamp32 (lastLine left).length⟩

theorem positionAt_byteLength (left right : List Char) :
    positionAt (left ++ right) (byteLength left) = placeAfter left := by
  rw [positionAt, fitting_byteLength_append]
  rfl

/-- The range of the one character after a text. -/
def rangeAfter (left : List Char) : Range :=
  .singleChar (placeAfter left).line (placeAfter left).character

theorem rangeAfter_inj {left other : List Char} :
    rangeAfter left = rangeAfter other ↔ placeAfter left = placeAfter other := by
  constructor
  · intro same
    exact congrArg Range.start same
  · intro same
    rw [rangeAfter, same, rangeAfter]

theorem lastLine_append_of_not_mem
    {more : List Char} (unbroken : '\n' ∉ more) (left : List Char) :
    lastLine (left ++ more) = lastLine left ++ more := by
  have unbrokenReverse : ∀ c ∈ more.reverse, decide (c ≠ '\n') = true :=
    decide_ne_of_not_mem fun member => unbroken (List.mem_reverse.mp member)
  rw [lastLine, afterLast, List.reverse_append, List.takeWhile_append_of_pos unbrokenReverse,
    List.reverse_append, List.reverse_reverse]
  rfl

/-- A later place of a text with fewer than `2 ^ 32` characters has another position. -/
theorem placeAfter_append_ne
    {left more : List Char}
    (later : more ≠ []) (short : (left ++ more).length < UInt32.size) :
    placeAfter (left ++ more) ≠ placeAfter left := by
  intro same
  obtain ⟨sameLine, sameCharacter⟩ := Position.mk.inj same
  have size : UInt32.size = 4294967296 := rfl
  have total : (left ++ more).length = left.length + more.length := List.length_append
  have line := congrArg UInt32.toNat sameLine
  rw [toNat_clamp32, toNat_clamp32, List.count_append] at line
  have feeds : left.count '\n' ≤ left.length := List.count_le_length
  have moreFeeds : more.count '\n' ≤ more.length := List.count_le_length
  -- With no line feed between them both places are on one line.
  have unbroken : '\n' ∉ more := by
    rw [← List.count_eq_zero]
    omega
  have character := congrArg UInt32.toNat sameCharacter
  rw [toNat_clamp32, toNat_clamp32, lastLine_append_of_not_mem unbroken, List.length_append]
    at character
  have positive : 0 < more.length := List.length_pos_iff.mpr later
  have lineLength : (lastLine left).length ≤ left.length := by
    have reversed : left.reverse.length = left.length := List.length_reverse
    rw [lastLine, afterLast, List.length_reverse, ← reversed]
    exact (List.takeWhile_prefix _).length_le
  omega

/-! ## Looking back from a place -/

theorem beforeLast?_append_of_not_mem
    {mark : Char} {right : List Char} (absent : mark ∉ right) (left : List Char) :
    beforeLast? mark (left ++ mark :: right) = some left := by
  have passed : ∀ c ∈ right.reverse, decide (c ≠ mark) = true :=
    decide_ne_of_not_mem fun member => absent (List.mem_reverse.mp member)
  have stopped :
      (mark :: left.reverse).dropWhile (fun c => decide (c ≠ mark)) = mark :: left.reverse := by
    apply List.dropWhile_cons_of_neg
    rw [decide_eq_true_eq]
    exact fun different => different rfl
  rw [beforeLast?, List.reverse_append, List.reverse_cons, List.append_assoc,
    List.dropWhile_append_of_pos passed, List.singleton_append, stopped]
  exact congrArg some left.reverse_reverse

theorem trimEnd_append_of_isBlank
    {blank : List Char} {last : Char}
    (blanks : ∀ c ∈ blank, isBlank c = true) (solid : isBlank last = false) (left : List Char) :
    trimEnd (left ++ last :: blank) = left ++ [last] := by
  have passed : ∀ c ∈ blank.reverse, isBlank c = true :=
    fun c member => blanks c (List.mem_reverse.mp member)
  have stopped : ¬ isBlank last = true := by
    rw [solid]
    exact Bool.false_ne_true
  rw [trimEnd, List.reverse_append, List.reverse_cons, List.append_assoc,
    List.dropWhile_append_of_pos passed, List.singleton_append, List.dropWhile_cons_of_neg stopped,
    List.reverse_cons, List.reverse_reverse]

theorem exists_trimEnd (cs : List Char) :
    ∃ blank, cs = trimEnd cs ++ blank ∧ ∀ c ∈ blank, isBlank c = true := by
  refine ⟨(cs.reverse.takeWhile isBlank).reverse, ?_, ?_⟩
  · rw [trimEnd, ← List.reverse_append, List.takeWhile_append_dropWhile, List.reverse_reverse]
  · intro c member
    exact List.all_eq_true.mp List.all_takeWhile c (List.mem_reverse.mp member)

end Heredoc.Text
