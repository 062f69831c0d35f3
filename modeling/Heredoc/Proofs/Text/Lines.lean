import Heredoc.Buffer
import Heredoc.Text.Search

/-!
# Cutting and joining lines

Lines that hold no line feed come back when they are joined and cut again, and the lines of a
document that was cut from text hold none. A place in a text is on the line that is counted by the
line feeds in front of it, and what stands before it on that line is a part of the line.
-/

namespace Heredoc

namespace Text

/-! ## Pieces between line feeds -/

theorem splitLines_cons_newline (rest : List Char) :
    splitLines ('\n' :: rest) = [] :: splitLines rest := by
  rw [splitLines, if_pos rfl]

theorem exists_splitLines_cons
    {c : Char} (other : c ≠ '\n') (rest : List Char) :
    ∃ line more,
      splitLines rest = line :: more ∧ splitLines (c :: rest) = (c :: line) :: more := by
  cases pieces : splitLines rest with
  | nil => exact absurd pieces (splitLines_ne_nil rest)
  | cons line more =>
      refine ⟨line, more, rfl, ?_⟩
      rw [splitLines, if_neg other, pieces]

theorem splitLines_of_not_mem
    {cs : List Char} (unbroken : '\n' ∉ cs) :
    splitLines cs = [cs] := by
  induction cs with
  | nil => rfl
  | cons c rest inductionHypothesis =>
      have other : c ≠ '\n' := fun same => unbroken (same ▸ List.mem_cons_self)
      have restUnbroken : '\n' ∉ rest := fun member => unbroken (List.mem_cons_of_mem c member)
      obtain ⟨line, more, restPieces, pieces⟩ := exists_splitLines_cons other rest
      rw [inductionHypothesis restUnbroken] at restPieces
      injection restPieces with sameLine sameMore
      rw [pieces, ← sameLine, ← sameMore]

theorem splitLines_append_newline (left right : List Char) :
    splitLines (left ++ '\n' :: right) = splitLines left ++ splitLines right := by
  induction left with
  | nil => exact splitLines_cons_newline right
  | cons c rest inductionHypothesis =>
      by_cases newline : c = '\n'
      · subst c
        rw [List.cons_append, splitLines_cons_newline, splitLines_cons_newline,
          inductionHypothesis, List.cons_append]
      · obtain ⟨line, more, restPieces, pieces⟩ := exists_splitLines_cons newline rest
        obtain ⟨line', more', restPieces', pieces'⟩ :=
          exists_splitLines_cons newline (rest ++ '\n' :: right)
        rw [inductionHypothesis, restPieces, List.cons_append] at restPieces'
        injection restPieces' with sameLine sameMore
        rw [List.cons_append, pieces', pieces, ← sameLine, ← sameMore, List.cons_append]

theorem not_mem_of_mem_splitLines
    {cs line : List Char} (piece : line ∈ splitLines cs) :
    '\n' ∉ line := by
  induction cs generalizing line with
  | nil =>
      rw [splitLines, List.mem_singleton] at piece
      rw [piece]
      exact List.not_mem_nil
  | cons c rest inductionHypothesis =>
      by_cases newline : c = '\n'
      · subst c
        rw [splitLines_cons_newline] at piece
        rcases List.mem_cons.mp piece with rfl | later
        · exact List.not_mem_nil
        · exact inductionHypothesis later
      · obtain ⟨first, more, restPieces, pieces⟩ := exists_splitLines_cons newline rest
        rw [pieces] at piece
        rcases List.mem_cons.mp piece with rfl | later
        · have firstUnbroken : '\n' ∉ first :=
            inductionHypothesis (restPieces ▸ List.mem_cons_self)
          intro member
          rcases List.mem_cons.mp member with same | inFirst
          · exact newline same.symm
          · exact firstUnbroken inFirst
        · exact inductionHypothesis (restPieces ▸ List.mem_cons_of_mem first later)

/-! ## The last of a character -/

theorem eq_append_of_beforeLast?
    {mark : Char} {cs kept : List Char} (found : beforeLast? mark cs = some kept) :
    cs = kept ++ mark :: afterLast mark cs := by
  rw [beforeLast?] at found
  cases rest : cs.reverse.dropWhile (· ≠ mark) with
  | nil =>
      rw [rest] at found
      cases found
  | cons c more =>
      rw [rest] at found
      obtain rfl := Option.some.inj found
      have isMark : c = mark := by
        have stopped := List.head?_dropWhile_not (fun c => decide (c ≠ mark)) cs.reverse
        rw [rest] at stopped
        simpa using stopped
      have whole := List.takeWhile_append_dropWhile (p := fun c => decide (c ≠ mark))
        (l := cs.reverse)
      rw [rest, isMark] at whole
      have reversed := congrArg List.reverse whole
      rw [List.reverse_reverse, List.reverse_append, List.reverse_cons, List.append_assoc,
        List.singleton_append] at reversed
      rw [afterLast]
      exact reversed.symm

theorem afterLast_of_beforeLast?_eq_none
    {mark : Char} {cs : List Char} (absent : beforeLast? mark cs = none) :
    afterLast mark cs = cs := by
  rw [beforeLast?] at absent
  cases rest : cs.reverse.dropWhile (· ≠ mark) with
  | cons c more =>
      rw [rest] at absent
      cases absent
  | nil =>
      have whole := List.takeWhile_append_dropWhile (p := fun c => decide (c ≠ mark))
        (l := cs.reverse)
      rw [rest, List.append_nil] at whole
      rw [afterLast, whole, List.reverse_reverse]

theorem not_mem_afterLast (mark : Char) (cs : List Char) : mark ∉ afterLast mark cs := by
  intro member
  rw [afterLast, List.mem_reverse] at member
  have other := List.all_takeWhile (p := fun c => decide (c ≠ mark)) (l := cs.reverse)
  rw [List.all_eq_true] at other
  simpa using other mark member

/-! ## The line of a place -/

theorem length_splitLines (cs : List Char) :
    (splitLines cs).length = cs.count '\n' + 1 := by
  induction cs with
  | nil => rfl
  | cons c rest inductionHypothesis =>
      by_cases newline : c = '\n'
      · subst c
        rw [splitLines_cons_newline, List.length_cons, inductionHypothesis, List.count_cons_self]
      · obtain ⟨line, more, restPieces, pieces⟩ := exists_splitLines_cons newline rest
        rw [restPieces, List.length_cons] at inductionHypothesis
        rw [pieces, List.length_cons, inductionHypothesis, List.count_cons_of_ne newline]

theorem exists_splitLines_append
    {left : List Char} (unbroken : '\n' ∉ left) (right : List Char) :
    ∃ line more, splitLines (left ++ right) = (left ++ line) :: more := by
  induction left with
  | nil => exact List.exists_cons_of_ne_nil (splitLines_ne_nil right)
  | cons c rest inductionHypothesis =>
      have other : c ≠ '\n' := fun same => unbroken (same ▸ List.mem_cons_self)
      have restUnbroken : '\n' ∉ rest := fun member => unbroken (List.mem_cons_of_mem c member)
      obtain ⟨line, more, restPieces⟩ := inductionHypothesis restUnbroken
      obtain ⟨line', more', restPieces', pieces⟩ := exists_splitLines_cons other (rest ++ right)
      rw [restPieces] at restPieces'
      injection restPieces' with sameLine sameMore
      exact ⟨line, more', by rw [List.cons_append, pieces, ← sameLine, List.cons_append]⟩

theorem exists_line_of_prefix
    {before text : List Char} (front : before <+: text) :
    ∃ line,
      (splitLines text)[before.count '\n']? = some line ∧ afterLast '\n' before <+: line := by
  obtain ⟨after, rfl⟩ := front
  have unbroken := not_mem_afterLast '\n' before
  obtain ⟨line, more, pieces⟩ := exists_splitLines_append unbroken after
  refine ⟨afterLast '\n' before ++ line, ?_, List.prefix_append _ _⟩
  cases last : beforeLast? '\n' before with
  | none =>
      have whole := afterLast_of_beforeLast?_eq_none last
      rw [whole] at unbroken pieces
      rw [List.count_eq_zero_of_not_mem unbroken, whole, pieces]
      rfl
  | some kept =>
      -- The last line feed in front of the place ends all lines before its own.
      have whole := eq_append_of_beforeLast? last
      have feeds : before.count '\n' = (splitLines kept).length := by
        rw [length_splitLines, whole, List.count_append, List.count_cons_self,
          List.count_eq_zero_of_not_mem unbroken]
      have joined : before ++ after = kept ++ '\n' :: (afterLast '\n' before ++ after) :=
        calc
          before ++ after = (kept ++ '\n' :: afterLast '\n' before) ++ after :=
            congrArg (· ++ after) whole
          _ = kept ++ '\n' :: (afterLast '\n' before ++ after) := by
            rw [List.append_assoc, List.cons_append]
      rw [feeds, joined, splitLines_append_newline, pieces,
        List.getElem?_append_right (Nat.le_refl _), Nat.sub_self]
      rfl

/-! ## Joining and cutting again -/

theorem toList_joinLines (lines : List String) :
    (joinLines lines).toList = ['\n'].intercalate (lines.map String.toList) := by
  rw [joinLines, String.toList_intercalate]
  rfl

/-- One empty line and no line are joined to the same text, hence the first condition. -/
theorem splitLines_joinLines
    {lines : List String}
    (nonempty : lines ≠ []) (unbroken : ∀ line ∈ lines, '\n' ∉ line.toList) :
    splitLines (joinLines lines).toList = lines.map String.toList := by
  rw [toList_joinLines]
  induction lines with
  | nil => exact absurd rfl nonempty
  | cons line rest inductionHypothesis =>
      have lineUnbroken : '\n' ∉ line.toList := unbroken line List.mem_cons_self
      cases rest with
      | nil =>
          rw [List.map_singleton, List.intercalate_singleton]
          exact splitLines_of_not_mem lineUnbroken
      | cons next others =>
          have restSplit :=
            inductionHypothesis (List.cons_ne_nil next others) fun later member =>
              unbroken later (List.mem_cons_of_mem line member)
          rw [List.map_cons, List.map_cons, List.intercalate_cons_cons, ← List.map_cons,
            List.append_assoc, List.singleton_append, splitLines_append_newline, restSplit,
            splitLines_of_not_mem lineUnbroken, List.singleton_append]

/-! ## Lines of a document -/

theorem mem_of_mem_dropReturn
    {c : Char} {cs : List Char} (member : c ∈ dropReturn cs) :
    c ∈ cs := by
  fun_induction dropReturn cs with
  | case1 => exact member
  | case2 => exact absurd member List.not_mem_nil
  | case3 first rest _ inductionHypothesis =>
      rcases List.mem_cons.mp member with rfl | later
      · exact List.mem_cons_self
      · exact List.mem_cons_of_mem first (inductionHypothesis later)

theorem not_mem_of_mem_documentLines
    {text line : String} (member : line ∈ documentLines text) :
    '\n' ∉ line.toList := by
  obtain ⟨piece, present, rfl⟩ := List.mem_map.mp member
  rw [String.toList_ofList]
  intro newline
  exact not_mem_of_mem_splitLines present (mem_of_mem_dropReturn newline)

end Text

/-- No line of the document holds a line feed. -/
def Document.IsCut (document : Document) : Prop :=
  ∀ line ∈ document.lines, '\n' ∉ line.toList

theorem Document.isCut_ofText (id : BufferId) (version : Nat) (text : String) :
    (Document.ofText id version text).IsCut :=
  fun _ member => Text.not_mem_of_mem_documentLines member

theorem Document.isCut_setText (document : Document) (text : String) :
    (document.setText text).IsCut :=
  fun _ member => Text.not_mem_of_mem_documentLines member

end Heredoc
