import Heredoc.Json.Check
import Heredoc.Proofs.Text.Offsets

/-!
# From what a JSON parser reports to the place of a diagnostic

The check of a JSON body is carried out here for any parser, whatever line and column it reports,
with cuts of the text that may fail and looks at single bytes. Main statements: no cut fails and the
diagnostic is at the position of some offset (`check?_eq`), and with the parser of this library the
check is `Json.check` (`check?_refusal?`).
-/

namespace Heredoc.Json

/-- What a parser says of a text that it refuses; lines and columns count from one. -/
structure Refusal where
  isContent : Bool
  message : String
  line : Nat
  column : Nat
deriving DecidableEq, Repr

/-! ## The check by cuts -/

/-- Whether the byte of a character below 128 stands at an offset. -/
def hasByte (text : List Char) (offset : Nat) (mark : Char) : Bool :=
  (Text.bytes text)[offset]? = some (Text.byte mark)

/-- Moves from just past a key back to its opening quote, by a cut at the closing one. -/
def toOpeningQuote? (text : List Char) (offset : Nat) : Option Nat :=
  let offset :=
    if hasByte text offset '"' = false ∧ offset > 0 ∧ hasByte text (offset - 1) '"' = true
    then offset - 1 else offset
  if hasByte text offset '"' = true then
    (Text.cut? offset text).map fun parts =>
      match Text.beforeLast? '"' parts.1 with
      | some before => Text.byteLength before
      | none => offset
  else some offset

/-- Moves from a closing bracket back to a comma that stands before it, white space apart, by a cut at
the bracket. -/
def toTrailingComma? (text : List Char) (offset : Nat) : Option Nat :=
  if hasByte text offset '\x7d' = true ∨ hasByte text offset ']' = true then
    (Text.cut? offset text).map fun parts =>
      let before := Text.trimEnd parts.1
      if before.getLast? = some ',' then Text.byteLength before - 1 else offset
  else some offset

def isInlineBlank (c : Char) : Bool :=
  c == ' ' || c == '\t' || c == '\r'

/-- The offset after the blank bytes from an offset on. -/
def skipBlankBytes (text : List Char) (offset : Nat) : Nat :=
  offset + (((Text.bytes text).drop offset).takeWhile (Text.byteIn isInlineBlank)).length

/-- The offset that a diagnostic marks, by cuts. -/
def markedOffset? (text : List Char) (refusal : Refusal) : Option Nat := do
  let reported ← Text.offsetOf? text (refusal.line - 1) (refusal.column - 1)
  let moved ←
    (if refusal.isContent then toOpeningQuote? text reported else toTrailingComma? text reported)
  return skipBlankBytes text moved

/-- The diagnostic of a refusal, by cuts. -/
def diagnosticOf? (text : List Char) (refusal : Refusal) : Option LocalDiagnostic := do
  let offset ← markedOffset? text refusal
  let at_ ← Text.positionAt? text offset
  let message ← Text.stripLocation? refusal.message
  return {
    message
    severity := if refusal.isContent then .warning else .error
    range := some (.singleChar at_.line at_.character) }

/-- The check of a body with any parser; `none` if the text is cut where it cannot be. -/
def check? (parse : List Char → Option Refusal) (body : String) :
    Option (Option LocalDiagnostic) :=
  let text := body.toList
  if text.all Text.isBlank then some none
  else match parse text with
    | none => some none
    | some refusal => (diagnosticOf? text refusal).map some

/-! ## No cut fails -/

theorem hasByte_eq
    {text : List Char} {offset : Nat} {mark : Char} (ascii : mark.toNat < 128) :
    hasByte text offset mark = decide (Text.charAt? offset text = some mark) := by
  rw [hasByte, decide_eq_decide]
  exact Text.byte_eq_iff ascii

theorem toOpeningQuote?_eq (text : List Char) (offset : Nat) :
    toOpeningQuote? text offset = some (toOpeningQuote text offset) := by
  have quote (offset : Nat) :
      hasByte text offset '"' = decide (Text.charAt? offset text = some '"') :=
    hasByte_eq (by decide)
  rw [toOpeningQuote?, toOpeningQuote]
  simp only [quote, decide_eq_true_eq, decide_eq_false_iff_not]
  generalize
    (if ¬ Text.charAt? offset text = some '"' ∧ offset > 0 ∧
        Text.charAt? (offset - 1) text = some '"'
      then offset - 1 else offset) = moved
  by_cases shown : Text.charAt? moved text = some '"'
  · obtain ⟨right, cut⟩ := Text.cut?_of_charAt? shown
    rw [if_pos shown, if_pos shown, cut]
    rfl
  · rw [if_neg shown, if_neg shown]

theorem toTrailingComma?_eq (text : List Char) (offset : Nat) :
    toTrailingComma? text offset = some (toTrailingComma text offset) := by
  have brace : hasByte text offset '\x7d' = decide (Text.charAt? offset text = some '\x7d') :=
    hasByte_eq (by decide)
  have bracket : hasByte text offset ']' = decide (Text.charAt? offset text = some ']') :=
    hasByte_eq (by decide)
  rw [toTrailingComma?, toTrailingComma]
  simp only [brace, bracket, decide_eq_true_eq]
  by_cases closing :
      Text.charAt? offset text = some '\x7d' ∨ Text.charAt? offset text = some ']'
  · obtain ⟨c, shown⟩ : ∃ c, Text.charAt? offset text = some c := by
      rcases closing with shown | shown
      · exact ⟨_, shown⟩
      · exact ⟨_, shown⟩
    obtain ⟨right, cut⟩ := Text.cut?_of_charAt? shown
    rw [if_pos closing, if_pos closing, cut, Option.map_some]
  · rw [if_neg closing, if_neg closing]

theorem toNat_lt_of_isInlineBlank (c : Char) (blank : isInlineBlank c = true) :
    c.toNat < 128 := by
  simp only [isInlineBlank, Bool.or_eq_true, beq_iff_eq] at blank
  rcases blank with (rfl | rfl) | rfl <;> decide

theorem skipBlankBytes_eq (text : List Char) (offset : Nat) :
    skipBlankBytes text offset =
      match Text.charAt? offset text with
      | some _ => offset + blanksAt text offset
      | none => offset := by
  cases shown : Text.charAt? offset text with
  | some c =>
      obtain ⟨left, right, rfl, rfl⟩ := Text.charAt?_eq_some shown
      have dropped :
          (Text.bytes (left ++ c :: right)).drop (Text.byteLength left) =
            Text.bytes (c :: right) := by
        rw [Text.bytes, List.flatMap_append, ← Text.length_bytes]
        exact List.drop_left
      rw [skipBlankBytes, dropped, Text.length_takeWhile_byteIn toNat_lt_of_isInlineBlank, blanksAt,
        Text.fitting_byteLength_append, List.drop_left]
      rfl
  | none =>
      -- A blank byte there would be a character.
      have noBlank :
          ((Text.bytes text).drop offset).takeWhile (Text.byteIn isInlineBlank) = [] := by
        cases rest : (Text.bytes text).drop offset with
        | nil => rfl
        | cons b more =>
            refine List.takeWhile_cons_of_neg ?_
            intro blank
            obtain ⟨mark, ascii, rfl⟩ := Text.exists_of_byteIn blank
            have byteThere : (Text.bytes text)[offset]? = some (Text.byte mark) := by
              rw [← List.head?_drop, rest]
              rfl
            rw [(Text.byte_eq_iff ascii).mp byteThere] at shown
            cases shown
      rw [skipBlankBytes, noBlank, List.length_nil, Nat.add_zero]

/-! ## The check of any parser -/

/-- The offset that is marked when this one is reported. -/
def markedFrom (text : List Char) (isContent : Bool) (offset : Nat) : Nat :=
  let moved := if isContent then toOpeningQuote text offset else toTrailingComma text offset
  match Text.charAt? moved text with
  | some _ => moved + blanksAt text moved
  | none => moved

namespace Refusal

/-- The offset that the diagnostic marks. -/
def offset (text : List Char) (refusal : Refusal) : Nat :=
  markedFrom text refusal.isContent
    (Text.offsetOf text (refusal.line - 1) (refusal.column - 1))

/-- The diagnostic of the refusal. -/
def diagnostic (text : List Char) (refusal : Refusal) : LocalDiagnostic :=
  let at_ := Text.positionAt text (refusal.offset text)
  { message := Text.stripLocation refusal.message
    severity := if refusal.isContent then .warning else .error
    range := some (.singleChar at_.line at_.character) }

end Refusal

theorem markedOffset?_eq (text : List Char) (refusal : Refusal) :
    markedOffset? text refusal = some (refusal.offset text) := by
  rw [markedOffset?, Text.offsetOf?_eq, Refusal.offset, markedFrom]
  cases refusal.isContent with
  | true =>
      simp only [Option.bind_eq_bind, Option.bind_some, if_true, toOpeningQuote?_eq,
        skipBlankBytes_eq]
      rfl
  | false =>
      simp only [Option.bind_eq_bind, Option.bind_some, Bool.false_eq_true, if_false,
        toTrailingComma?_eq, skipBlankBytes_eq]
      rfl

theorem diagnosticOf?_eq (text : List Char) (refusal : Refusal) :
    diagnosticOf? text refusal = some (refusal.diagnostic text) := by
  rw [diagnosticOf?, markedOffset?_eq]
  simp only [Option.bind_eq_bind, Option.bind_some, Text.positionAt?_eq, Text.stripLocation?_eq]
  rfl

theorem check?_eq (parse : List Char → Option Refusal) (body : String) :
    check? parse body =
      some (if body.toList.all Text.isBlank then none
        else (parse body.toList).map (Refusal.diagnostic body.toList)) := by
  rw [check?]
  by_cases blank : body.toList.all Text.isBlank = true
  · simp only [blank, if_true]
  · simp only [blank, Bool.false_eq_true, if_false]
    cases parse body.toList with
    | none => rfl
    | some refusal =>
        simp only [diagnosticOf?_eq, Option.map_some]

/-! ## The parser of this library -/

/-- What is wrong with a text, with the line and column of the place where it was found. -/
def refusal? (text : List Char) : Option Refusal :=
  (firstProblem text).map fun problem =>
    { isContent := problem.cause.isContent
      message := problem.message text
      line := (Text.lineColumn text problem.index).1
      column := (Text.lineColumn text problem.index).2 }

theorem check?_refusal? (body : String) : check? refusal? body = some (check body) := by
  rw [check?_eq, check, refusal?, Option.map_map]
  rfl

/-! ## The place of a diagnostic -/

theorem reportedOffset_byteLength (cause : Cause) (left right : List Char) :
    reportedOffset (left ++ right) ⟨cause, Text.byteLength left⟩ =
      Text.lastLineStart left + (Text.byteLength (Text.lastLine left) - 1) := by
  rw [reportedOffset, Text.lineColumn_byteLength]
  exact Text.offsetOf_lastLine (Nat.sub_le _ 1) right

/-- The byte before the place where a problem is found, if that is on the same line. -/
theorem reportedOffset_append
    {c : Char} (ascii : c.utf8Size = 1) (sameLine : c ≠ '\n')
    (cause : Cause) (left right : List Char) :
    reportedOffset (left ++ c :: right) ⟨cause, Text.byteLength left + 1⟩ =
      Text.byteLength left := by
  have size := Text.byteLength_concat ascii left
  have reported := reportedOffset_byteLength cause (left ++ [c]) right
  have total := Text.byteLength_eq_lastLineStart_add (left ++ [c])
  have line : 0 < Text.byteLength (Text.lastLine (left ++ [c])) := by
    rw [Text.lastLine_append_of_not_mem (by simpa using sameLine.symm), Text.byteLength_append,
      Text.byteLength, ascii]
    omega
  rw [List.append_assoc, List.singleton_append, size] at reported
  omega

/-- The place before the first byte of a character that does not end a line is reported. -/
theorem reportedOffset_insideLine
    {c : Char} (sameLine : c ≠ '\n') (cause : Cause) (left right : List Char) :
    reportedOffset (left ++ c :: right) ⟨cause, Text.byteLength left + 1⟩ =
      Text.byteLength left := by
  by_cases ascii : c.utf8Size = 1
  · exact reportedOffset_append ascii sameLine cause left right
  · have positive := c.utf8Size_pos
    have front : Text.fitting (Text.byteLength left + 1) (left ++ c :: right) = left :=
      Text.fitting_of_lt (Nat.le_succ _) (by omega) right
    have total := Text.byteLength_eq_lastLineStart_add left
    have column :
        Text.byteLength left + 1 -
            (Text.byteLength left - Text.byteLength (Text.lastLine left)) - 1 =
          Text.byteLength (Text.lastLine left) := by
      omega
    rw [reportedOffset, Text.lineColumn]
    dsimp only
    rw [front, Nat.add_sub_cancel, column, Text.offsetOf_lastLine (Nat.le_refl _), total]

/-- The last byte of a character that does not end a line is reported after it. -/
theorem reportedOffset_afterChar
    {c : Char} (sameLine : c ≠ '\n') (cause : Cause) (left right : List Char) :
    reportedOffset (left ++ c :: right) ⟨cause, Text.byteLength (left ++ [c])⟩ =
      Text.byteLength left + (c.utf8Size - 1) := by
  have positive := c.utf8Size_pos
  have size : Text.byteLength (left ++ [c]) = Text.byteLength left + c.utf8Size :=
    Text.byteLength_append left [c]
  have line :
      Text.byteLength (Text.lastLine (left ++ [c])) =
        Text.byteLength (Text.lastLine left) + c.utf8Size := by
    rw [Text.lastLine_append_of_not_mem (by simpa using sameLine.symm)]
    exact Text.byteLength_append _ [c]
  have total := Text.byteLength_eq_lastLineStart_add (left ++ [c])
  rw [List.append_cons, reportedOffset_byteLength]
  omega

/-- A problem that is found at the start of a line is reported there. -/
theorem reportedOffset_append_newline (cause : Cause) (left right : List Char) :
    reportedOffset (left ++ '\n' :: right) ⟨cause, Text.byteLength left + 1⟩ =
      Text.byteLength left + 1 := by
  have size : Text.byteLength (left ++ ['\n']) = Text.byteLength left + 1 :=
    Text.byteLength_concat rfl left
  have reported := reportedOffset_byteLength cause (left ++ ['\n']) right
  have total := Text.byteLength_eq_lastLineStart_add (left ++ ['\n'])
  have line : Text.lastLine (left ++ ['\n']) = [] := by
    rw [Text.lastLine, Text.afterLast, List.reverse_append]
    rfl
  rw [List.append_assoc, List.singleton_append, size, line] at reported
  rw [line] at total
  have nothing : Text.byteLength [] = 0 := rfl
  omega

/-- Blanks on the line are passed over before the place is marked. -/
theorem markedOffset_append
    {problem : Problem} {left right : List Char}
    (moved :
      (if problem.cause.isContent then
          toOpeningQuote (left ++ right) (reportedOffset (left ++ right) problem)
        else toTrailingComma (left ++ right) (reportedOffset (left ++ right) problem)) =
        Text.byteLength left) :
    markedOffset (left ++ right) problem =
      Text.byteLength (left ++ right.takeWhile isInlineBlank) := by
  have blanks : Text.byteLength (right.takeWhile isInlineBlank) =
      (right.takeWhile isInlineBlank).length := by
    apply Text.byteLength_of_lt
    intro c member
    exact toNat_lt_of_isInlineBlank c (List.all_eq_true.mp List.all_takeWhile c member)
  rw [markedOffset]
  simp only [moved, Text.charAt?_byteLength_append]
  rw [Text.byteLength_append, blanks, blanksAt, Text.fitting_byteLength_append, List.drop_left]
  cases right with
  | nil => rfl
  | cons c more => rfl

theorem diagnosticOf_range
    (problem : Problem) {left right : List Char}
    (moved :
      (if problem.cause.isContent then
          toOpeningQuote (left ++ right) (reportedOffset (left ++ right) problem)
        else toTrailingComma (left ++ right) (reportedOffset (left ++ right) problem)) =
        Text.byteLength left) :
    (diagnosticOf (left ++ right) problem).range =
      some (Text.rangeAfter (left ++ right.takeWhile isInlineBlank)) := by
  have joined :
      left ++ right =
        (left ++ right.takeWhile isInlineBlank) ++ right.dropWhile isInlineBlank := by
    rw [List.append_assoc, List.takeWhile_append_dropWhile]
  have place := Text.positionAt_byteLength (left ++ right.takeWhile isInlineBlank)
    (right.dropWhile isInlineBlank)
  rw [← joined] at place
  rw [diagnosticOf]
  simp only [markedOffset_append moved, place]
  rfl

end Heredoc.Json
