import Heredoc.Proofs.Json.Location
import Heredoc.Proofs.Json.Nesting
import Heredoc.Proofs.Json.ProblemPlace

/-!
# Commas that a problem is moved onto

A diagnostic is moved from where the problem was reported back to a comma before a closing bracket,
or on over blanks. It never moves over a quote, so the comma is outside of quoted texts exactly if
the reported place is. Main statement: for a problem that is not one of a quoted text it always is
(`json_moved_comma_structural_iff`).
-/

namespace Heredoc.Json

/-! ## The reported place -/

/-- A problem that was found outside of quoted texts is reported outside of them, unless it is
reported at a quote. -/
theorem structural_of_reportedOffset
    {text : List Char} {problem : Problem} {c : Char}
    (found : FoundOutside 0 text problem.index)
    (shown : Text.charAt? (reportedOffset text problem) text = some c)
    (notQuote : c ≠ '"') :
    Structural (Text.fitting (reportedOffset text problem) text) := by
  obtain ⟨front, back, rfl, structural, place⟩ := found
  obtain ⟨cause, index⟩ := problem
  rw [Nat.zero_add] at place
  rcases place with rfl | ⟨nonempty, rfl⟩
  · -- What is reported is the last byte of `front`, unless a line starts after it.
    rcases front.eq_nil_or_concat' with rfl | ⟨kept, d, rfl⟩
    · have reported :
          reportedOffset ([] ++ back) ⟨cause, Text.byteLength []⟩ = Text.byteLength [] :=
        reportedOffset_byteLength cause [] back
      rw [reported, Text.fitting_byteLength_append]
      exact structural
    · rw [List.append_assoc, List.singleton_append] at shown ⊢
      by_cases newline : d = '\n'
      · subst newline
        have size : Text.byteLength (kept ++ ['\n']) = Text.byteLength kept + 1 :=
          Text.byteLength_concat rfl kept
        rw [size, reportedOffset_append_newline, List.append_cons, ← size,
          Text.fitting_byteLength_append]
        exact structural
      · rw [reportedOffset_afterChar newline] at shown ⊢
        have positive := d.utf8Size_pos
        have quoteless : '"' ∉ [d] := by
          intro member
          rw [← List.mem_singleton.mp member] at shown
          have first :
              Text.charAt? (Text.byteLength kept + ('"'.utf8Size - 1)) (kept ++ '"' :: back) =
                some '"' :=
            Text.charAt?_byteLength_append kept ('"' :: back)
          rw [shown] at first
          exact notQuote (Option.some.inj first)
        rw [Text.fitting_of_lt (Nat.le_add_right _ _) (by omega)]
        exact (structural_append_iff quoteless kept).mp structural
  · -- What is reported is the place after `front`, or the next line.
    cases back with
    | nil => exact absurd rfl nonempty
    | cons d more =>
        by_cases newline : d = '\n'
        · subst newline
          have size : Text.byteLength (front ++ ['\n']) = Text.byteLength front + 1 :=
            Text.byteLength_concat rfl front
          rw [reportedOffset_append_newline, List.append_cons, ← size,
            Text.fitting_byteLength_append]
          exact (structural_append_iff (by decide) front).mpr structural
        · rw [reportedOffset_insideLine newline, Text.fitting_byteLength_append]
          exact structural

/-! ## The way to the comma -/

theorem toTrailingComma_cases (c : Char) (left right : List Char) :
    toTrailingComma (left ++ c :: right) (Text.byteLength left) = Text.byteLength left ∨
      (c = '\x7d' ∨ c = ']') ∧
        ∃ kept blank,
          left = kept ++ ',' :: blank ∧ (∀ d ∈ blank, Text.isBlank d = true) ∧
            toTrailingComma (left ++ c :: right) (Text.byteLength left) =
              Text.byteLength kept := by
  have shown : Text.charAt? (Text.byteLength left) (left ++ c :: right) = some c :=
    Text.charAt?_byteLength_append left (c :: right)
  unfold toTrailingComma
  dsimp only
  rw [shown, Text.fitting_byteLength_append]
  split
  · rename_i closes
    split
    · rename_i last
      obtain ⟨kept, trimmed⟩ := List.getLast?_eq_some_iff.mp last
      obtain ⟨blank, whole, blanks⟩ := Text.exists_trimEnd left
      refine .inr ⟨closes.imp Option.some.inj Option.some.inj, kept, blank, ?_, blanks, ?_⟩
      · rw [trimmed, List.append_assoc] at whole
        exact whole
      · rw [trimmed, Text.byteLength_concat rfl, Nat.add_sub_cancel]
    · exact .inl rfl
  · exact .inl rfl

/-- The comma stands after the blanks at the place that the diagnostic is moved to first. -/
theorem before_eq_of_marked
    {before after kept more : List Char} {problem : Problem}
    (form : problem.cause.isContent = false)
    (whole : before ++ ',' :: after = kept ++ more)
    (marked : markedOffset (kept ++ more) problem = Text.byteLength before)
    (goes :
      toTrailingComma (kept ++ more) (reportedOffset (kept ++ more) problem) =
        Text.byteLength kept) :
    before = kept ++ more.takeWhile isInlineBlank := by
  have there :
      markedOffset (kept ++ more) problem =
        Text.byteLength (kept ++ more.takeWhile isInlineBlank) := by
    apply markedOffset_append
    rw [form]
    exact goes
  have joined :
      before ++ ',' :: after =
        (kept ++ more.takeWhile isInlineBlank) ++ more.dropWhile isInlineBlank := by
    rw [List.append_assoc, List.takeWhile_append_dropWhile, whole]
  exact Text.eq_of_byteLength_eq joined (marked.symm.trans there)

/-- Between the comma and the reported place there is no quote, and none at that place. -/
theorem exists_shown_of_moved
    {before after text : List Char} {problem : Problem}
    (form : problem.cause.isContent = false)
    (whole : before ++ ',' :: after = text)
    (marked : markedOffset text problem = Text.byteLength before)
    (moved : reportedOffset text problem ≠ Text.byteLength before) :
    ∃ c,
      Text.charAt? (reportedOffset text problem) text = some c ∧ c ≠ '"' ∧
        (Structural before ↔ Structural (Text.fitting (reportedOffset text problem) text)) := by
  cases shown : Text.charAt? (reportedOffset text problem) text with
  | none =>
      have stays :
          toTrailingComma text (reportedOffset text problem) = reportedOffset text problem := by
        unfold toTrailingComma
        rw [shown]
        rfl
      unfold markedOffset at marked
      simp only [form, Bool.false_eq_true, if_false, stays, shown] at marked
      exact absurd marked moved
  | some c =>
      obtain ⟨left, right, rfl, reported⟩ := Text.charAt?_eq_some shown
      rw [← reported] at moved ⊢
      rw [Text.fitting_byteLength_append]
      refine ⟨c, rfl, ?_⟩
      rcases toTrailingComma_cases c left right with
        stays | ⟨closes, kept, blank, rfl, blanks, goes⟩
      · -- The comma comes after blanks, the first of them at the reported place.
        rw [reported] at stays
        have same := before_eq_of_marked form whole marked (stays.trans reported.symm)
        have inline : isInlineBlank c = true := by
          by_contra solid
          rw [List.takeWhile_cons_of_neg solid, List.append_nil] at same
          exact moved (congrArg Text.byteLength same.symm)
        have unquoted : '"' ∉ (c :: right).takeWhile isInlineBlank := by
          intro member
          exact absurd (List.all_eq_true.mp List.all_takeWhile '"' member) (by decide)
        refine ⟨?_, ?_⟩
        · intro quote
          rw [quote] at inline
          cases inline
        · rw [same]
          exact structural_append_iff unquoted left
      · -- The comma comes before the bracket at the reported place.
        rw [List.append_assoc, List.cons_append] at whole marked goes reported
        rw [reported] at goes
        have same := before_eq_of_marked form whole marked goes
        have nothing : (',' :: (blank ++ c :: right)).takeWhile isInlineBlank = [] := rfl
        rw [nothing, List.append_nil] at same
        have unquoted : '"' ∉ ',' :: blank := by
          intro member
          rcases List.mem_cons.mp member with comma | inBlank
          · exact absurd comma (by decide)
          · exact absurd (blanks '"' inBlank) (by decide)
        refine ⟨?_, ?_⟩
        · intro quote
          rw [quote] at closes
          exact absurd closes (by decide)
        · rw [same]
          exact (structural_append_iff unquoted kept).symm

/-- A problem in the form of a text that is moved onto a comma gives one error there. The comma is
outside of quoted texts exactly if the reported place is, as it is for every problem that does not
lie in a quoted text. -/
theorem json_moved_comma_structural_iff
    {before after : List Char} {problem : Problem}
    (found : firstProblem (before ++ ',' :: after) = some problem)
    (form : problem.cause.isContent = false)
    (marked : markedOffset (before ++ ',' :: after) problem = Text.byteLength before)
    (moved : reportedOffset (before ++ ',' :: after) problem ≠ Text.byteLength before) :
    (∃ finding,
      Validator.json.run (String.ofList (before ++ ',' :: after)) = .findings [finding] ∧
        finding.severity = .error ∧ finding.range = some (Text.rangeAfter before)) ∧
      (Structural before ↔
        Structural
          (Text.fitting (reportedOffset (before ++ ',' :: after) problem)
            (before ++ ',' :: after))) ∧
      (problem.cause.inText = false → Structural before) := by
  obtain ⟨c, shown, notQuote, iff⟩ := exists_shown_of_moved form rfl marked moved
  have comma : ',' ∈ before ++ ',' :: after := List.mem_append_right before List.mem_cons_self
  refine ⟨⟨_, json_run_of_problem comma rfl found, ?_, ?_⟩, iff, ?_⟩
  · rw [diagnosticOf]
    dsimp only
    rw [form]
    rfl
  · rw [diagnosticOf]
    dsimp only
    rw [marked, Text.positionAt_byteLength]
    rfl
  · intro notText
    have outside := foundOutside_of_firstProblem found form notText
    exact iff.mpr (structural_of_reportedOffset outside shown notQuote)

/-- The comma of `[[],]` is marked for the bracket after it, and so is that inside the quoted text
`"a,]`, which is not closed. -/
theorem json_moved_comma_structural_iff_unclosed :
    Structural ['[', '[', ']'] ∧
      ¬ Structural ['"', 'a'] ∧
      ∃ finding,
        Validator.json.run "\"a,]" = .findings [finding] ∧
          finding.severity = .error ∧ finding.range = some (.singleChar 0 2) := by
  have closed : firstProblem (['[', '[', ']'] ++ ',' :: [']']) = some ⟨.trailingComma, 5⟩ := by
    decide +kernel
  have unclosed : firstProblem (['"', 'a'] ++ ',' :: [']']) = some ⟨.endInText, 4⟩ := by
    decide +kernel
  have outside :=
    json_moved_comma_structural_iff closed rfl (by decide +kernel) (by decide +kernel)
  have inside :=
    json_moved_comma_structural_iff unclosed rfl (by decide +kernel) (by decide +kernel)
  exact ⟨outside.2.2 rfl, by decide, inside.1⟩

end Heredoc.Json
