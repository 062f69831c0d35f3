import Heredoc.Engine
import Heredoc.Proofs.Text.Lines

/-!
# Line endings

Lines are ended by a line feed, or by a carriage return and a line feed. A document that is cut
from text forgets which: joined again, its lines are the text with line feeds alone. Main
statement: the lines of a text do not depend on its line endings, hence neither do its regions nor
its diagnostics (`line_endings_forgotten`).
-/

namespace Heredoc

namespace Text

/-- The text with one line feed in place of each carriage return that a line feed follows. -/
def withLineFeeds : List Char → List Char
  | [] => []
  | '\r' :: '\n' :: rest => '\n' :: withLineFeeds rest
  | c :: rest => c :: withLineFeeds rest

/-- A line as it stands between line endings: no line feed, and no carriage return at the end that
would count as a part of the line ending. -/
structure IsLine (line : String) : Prop where
  unbroken : '\n' ∉ line.toList
  unended : line.toList.getLast? ≠ some '\r'

/-- The two line endings. -/
def IsLineEnding (ending : String) : Prop :=
  ending = "\n" ∨ ending = "\r\n"

/-- The text is made of the lines, with a line ending of either kind between each and the next. -/
inductive Joins : List String → List Char → Prop
  | last (line : String) : Joins [line] line.toList
  | next (line : String) {ending : String} {lines : List String} {text : List Char} :
      IsLineEnding ending → Joins lines text →
        Joins (line :: lines) (line.toList ++ (ending.toList ++ text))

/-! ## One carriage return less -/

theorem dropReturn_cons {c : Char} {rest : List Char} (other : ¬ (c = '\r' ∧ rest = [])) :
    dropReturn (c :: rest) = c :: dropReturn rest := by
  rw [dropReturn]
  intro isReturn isLast
  exact other ⟨isReturn, isLast⟩

theorem dropReturn_eq (cs : List Char) :
    dropReturn cs = if cs.getLast? = some '\r' then cs.dropLast else cs := by
  fun_induction dropReturn cs with
  | case1 => rfl
  | case2 => rfl
  | case3 c rest other inductionHypothesis =>
      cases rest with
      | nil =>
          have unended : [c].getLast? ≠ some '\r' := fun same => other (Option.some.inj same) rfl
          rw [if_neg unended]
          rfl
      | cons d more =>
          rw [inductionHypothesis, List.getLast?_cons_cons, List.dropLast_cons_cons]
          split
          · rfl
          · rfl

theorem dropReturn_of_unended {cs : List Char} (unended : cs.getLast? ≠ some '\r') :
    dropReturn cs = cs := by
  rw [dropReturn_eq, if_neg unended]

theorem dropReturn_concat (cs : List Char) : dropReturn (cs ++ ['\r']) = cs := by
  rw [dropReturn_eq, List.getLast?_concat, if_pos rfl, List.dropLast_concat]

/-! ## Joining what was cut -/

theorem withLineFeeds_eq_nil_iff {cs : List Char} : withLineFeeds cs = [] ↔ cs = [] := by
  fun_cases withLineFeeds cs <;> simp

/-- Where the first line is empty, there is no text or the first line ends at once. -/
theorem eq_nil_or_exists_cons_newline
    {cs : List Char} {more : List (List Char)} (pieces : splitLines cs = [] :: more) :
    cs = [] ∨ ∃ rest, cs = '\n' :: rest := by
  cases cs with
  | nil => exact .inl rfl
  | cons c rest =>
      by_cases newline : c = '\n'
      · exact .inr ⟨rest, by rw [newline]⟩
      · obtain ⟨line, others, _, pieces'⟩ := exists_splitLines_cons newline rest
        rw [pieces'] at pieces
        cases pieces

theorem intercalate_cons_head (c : Char) (line : List Char) (more : List (List Char)) :
    ['\n'].intercalate ((c :: line) :: more) = c :: ['\n'].intercalate (line :: more) := by
  cases more with
  | nil => rw [List.intercalate_singleton, List.intercalate_singleton]
  | cons next others =>
      rw [List.intercalate_cons_cons, List.intercalate_cons_cons, List.append_assoc,
        List.append_assoc, List.cons_append]

theorem intercalate_nil_cons {lines : List (List Char)} (nonempty : lines ≠ []) :
    ['\n'].intercalate ([] :: lines) = '\n' :: ['\n'].intercalate lines := by
  obtain ⟨next, others, rfl⟩ := List.exists_cons_of_ne_nil nonempty
  rw [List.intercalate_cons_cons]
  rfl

/-- Cut into lines and joined again, a text has line feeds alone, and not the carriage return at
its end. -/
theorem intercalate_splitLines (cs : List Char) :
    ['\n'].intercalate ((splitLines cs).map dropReturn) = dropReturn (withLineFeeds cs) := by
  fun_induction withLineFeeds cs with
  | case1 => rfl
  | case2 rest inductionHypothesis =>
      have pieces : splitLines ('\r' :: '\n' :: rest) = ['\r'] :: splitLines rest :=
        splitLines_append_newline ['\r'] rest
      have nonempty : (splitLines rest).map dropReturn ≠ [] := by
        simpa using splitLines_ne_nil rest
      have feed :
          dropReturn ('\n' :: withLineFeeds rest) = '\n' :: dropReturn (withLineFeeds rest) :=
        dropReturn_cons fun both => absurd both.1 (by decide)
      rw [pieces, feed, List.map_cons, ← inductionHypothesis]
      exact intercalate_nil_cons nonempty
  | case3 c rest other inductionHypothesis =>
      by_cases newline : c = '\n'
      · have nonempty : (splitLines rest).map dropReturn ≠ [] := by
          simpa using splitLines_ne_nil rest
        have feed : dropReturn (c :: withLineFeeds rest) = c :: dropReturn (withLineFeeds rest) :=
          dropReturn_cons fun both => absurd (newline.symm.trans both.1) (by decide)
        rw [feed, newline, splitLines_cons_newline, List.map_cons, ← inductionHypothesis]
        exact intercalate_nil_cons nonempty
      · obtain ⟨line, more, restPieces, pieces⟩ := exists_splitLines_cons newline rest
        -- A return in front of a line feed is the case before, so that here only a return that ends
        -- the text is dropped.
        by_cases final : c = '\r' ∧ rest = []
        · obtain ⟨rfl, rfl⟩ := final
          rfl
        · have openLine : ¬ (c = '\r' ∧ line = []) := by
            intro both
            rw [both.2] at restPieces
            rcases eq_nil_or_exists_cons_newline restPieces with empty | ⟨more', ended⟩
            · exact final ⟨both.1, empty⟩
            · exact other more' both.1 ended
          have openRest : ¬ (c = '\r' ∧ withLineFeeds rest = []) :=
            fun both => final ⟨both.1, withLineFeeds_eq_nil_iff.mp both.2⟩
          rw [restPieces, List.map_cons] at inductionHypothesis
          rw [pieces, List.map_cons, dropReturn_cons openLine, dropReturn_cons openRest,
            intercalate_cons_head, inductionHypothesis]

theorem map_toList_documentLines (text : String) :
    (documentLines text).map String.toList = (splitLines text.toList).map dropReturn := by
  rw [documentLines, List.map_map]
  exact List.map_congr_left fun _ _ => String.toList_ofList

theorem toList_joinLines_documentLines (text : String) :
    (joinLines (documentLines text)).toList = dropReturn (withLineFeeds text.toList) := by
  rw [toList_joinLines, map_toList_documentLines, intercalate_splitLines]

theorem eq_of_map_toList {lines others : List String}
    (same : lines.map String.toList = others.map String.toList) : lines = others :=
  (List.map_inj_right fun _ _ => String.toList_inj.mp).mp same

/-- Texts that are the same with line feeds alone have the same lines. -/
theorem documentLines_congr
    {text other : String} (same : withLineFeeds text.toList = withLineFeeds other.toList) :
    documentLines text = documentLines other := by
  have recut (text : String) :
      splitLines (joinLines (documentLines text)).toList =
        (documentLines text).map String.toList := by
    apply splitLines_joinLines
    · simpa [documentLines] using splitLines_ne_nil text.toList
    · intro line member
      exact not_mem_of_mem_documentLines member
  apply eq_of_map_toList
  rw [← recut, ← recut, toList_joinLines_documentLines, toList_joinLines_documentLines, same]

/-! ## Cutting what was joined -/

/-- The first line is cut off, with its line ending. -/
theorem map_dropReturn_splitLines_append
    {line ending : String} (isLine : IsLine line) (isEnding : IsLineEnding ending)
    (text : List Char) :
    (splitLines (line.toList ++ (ending.toList ++ text))).map dropReturn =
      line.toList :: (splitLines text).map dropReturn := by
  rcases isEnding with rfl | rfl
  · have cut := splitLines_append_newline line.toList text
    rw [splitLines_of_not_mem isLine.unbroken, List.singleton_append] at cut
    have pieces := congrArg (List.map dropReturn) cut
    rwa [List.map_cons, dropReturn_of_unended isLine.unended] at pieces
  · have unbroken : '\n' ∉ line.toList ++ ['\r'] := by
      simpa using isLine.unbroken
    have cut := splitLines_append_newline (line.toList ++ ['\r']) text
    rw [splitLines_of_not_mem unbroken, List.singleton_append, List.append_assoc] at cut
    have pieces := congrArg (List.map dropReturn) cut
    rwa [List.map_cons, dropReturn_concat] at pieces

theorem Joins.map_dropReturn
    {lines : List String} {text : List Char}
    (joins : Joins lines text) (each : ∀ line ∈ lines, IsLine line) :
    (splitLines text).map dropReturn = lines.map String.toList := by
  induction joins with
  | last line =>
      have isLine := each line List.mem_cons_self
      rw [splitLines_of_not_mem isLine.unbroken, List.map_singleton, List.map_singleton,
        dropReturn_of_unended isLine.unended]
  | next line isEnding _ inductionHypothesis =>
      have rest := inductionHypothesis
        fun later member => each later (List.mem_cons_of_mem _ member)
      rw [map_dropReturn_splitLines_append (each line List.mem_cons_self) isEnding, rest,
        List.map_cons]

theorem Joins.documentLines_eq
    {lines : List String} {text : String}
    (joins : Joins lines text.toList) (each : ∀ line ∈ lines, IsLine line) :
    documentLines text = lines := by
  apply eq_of_map_toList
  rw [map_toList_documentLines, joins.map_dropReturn each]

theorem joins_intercalate
    {ending : String} {lines : List String}
    (isEnding : IsLineEnding ending) (nonempty : lines ≠ []) :
    Joins lines (ending.intercalate lines).toList := by
  rw [String.toList_intercalate]
  induction lines with
  | nil => exact absurd rfl nonempty
  | cons line rest inductionHypothesis =>
      cases rest with
      | nil =>
          rw [List.map_singleton, List.intercalate_singleton]
          exact .last line
      | cons following others =>
          have joined :=
            Joins.next line isEnding (inductionHypothesis (List.cons_ne_nil following others))
          rwa [List.map_cons, List.map_cons, List.intercalate_cons_cons, ← List.map_cons,
            List.append_assoc]

end Text

/-- Lines that are cut from a text and joined again give the text with line feeds alone, without
the carriage return that may be left at its end; and lines that are joined by line endings of
either kind, in any mixture, are cut again from what they give. Texts that differ in their line
endings only are therefore scanned and checked alike. -/
theorem line_endings_forgotten :
    (∀ (id : BufferId) (version : Nat) (text : String),
      (Text.joinLines (Document.ofText id version text).lines).toList =
        if (Text.withLineFeeds text.toList).getLast? = some '\r' then
          (Text.withLineFeeds text.toList).dropLast
        else Text.withLineFeeds text.toList) ∧
      (∀ (id : BufferId) (version : Nat) (lines : List String) (text : String),
        Text.Joins lines text.toList → (∀ line ∈ lines, Text.IsLine line) →
          (Document.ofText id version text).lines = lines) ∧
      (∀ lines : List String,
        lines ≠ [] →
          Text.Joins lines ("\n".intercalate lines).toList ∧
            Text.Joins lines ("\r\n".intercalate lines).toList) ∧
      ∀ (engine : Engine) (id : BufferId) (version : Nat) (text other : String),
        (Text.withLineFeeds text.toList = Text.withLineFeeds other.toList ∨
          ∃ lines, (∀ line ∈ lines, Text.IsLine line) ∧
            Text.Joins lines text.toList ∧ Text.Joins lines other.toList) →
          scan engine.tags (Document.ofText id version text).view =
              scan engine.tags (Document.ofText id version other).view ∧
            engine.validate (Document.ofText id version text).view =
              engine.validate (Document.ofText id version other).view := by
  refine ⟨?_, ?_, ?_, ?_⟩
  · intro id version text
    rw [← Text.dropReturn_eq]
    exact Text.toList_joinLines_documentLines text
  · intro id version lines text joins each
    exact joins.documentLines_eq each
  · intro lines nonempty
    exact ⟨Text.joins_intercalate (.inl rfl) nonempty, Text.joins_intercalate (.inr rfl) nonempty⟩
  · intro engine id version text other alike
    have sameLines : Text.documentLines text = Text.documentLines other := by
      rcases alike with same | ⟨lines, each, joins, otherJoins⟩
      · exact Text.documentLines_congr same
      · rw [joins.documentLines_eq each, otherJoins.documentLines_eq each]
    have sameDocument : Document.ofText id version text = Document.ofText id version other := by
      rw [Document.ofText, Document.ofText, sameLines]
    rw [sameDocument]
    exact ⟨rfl, rfl⟩

/-- Both line endings in two orders, and a carriage return inside a line. -/
theorem line_endings_forgotten_mixed :
    let lines := ["cat <<JSON", "[\r1,]", "JSON"]
    let engine : Engine := ⟨.standard, .standard fun _ => none, {}⟩
    (∀ line ∈ lines, Text.IsLine line) ∧ lines ≠ [] ∧
      (Document.ofText "a.sh" 1 "cat <<JSON\r\n[\r1,]\nJSON").lines = lines ∧
      (Document.ofText "a.sh" 1 "cat <<JSON\n[\r1,]\r\nJSON").lines = lines ∧
      Text.Joins lines ("\r\n".intercalate lines).toList ∧
      engine.validate (Document.ofText "a.sh" 1 "cat <<JSON\r\n[\r1,]\nJSON").view =
        engine.validate (Document.ofText "a.sh" 1 "cat <<JSON\n[\r1,]\r\nJSON").view := by
  intro lines engine
  have each : ∀ line ∈ lines, Text.IsLine line := by
    have all :
        ∀ line ∈ lines, '\n' ∉ line.toList ∧ line.toList.getLast? ≠ some '\r' := by decide +kernel
    exact fun line member => ⟨(all line member).1, (all line member).2⟩
  have first : Text.Joins lines "cat <<JSON\r\n[\r1,]\nJSON".toList :=
    .next "cat <<JSON" (.inr rfl) (.next "[\r1,]" (.inl rfl) (.last "JSON"))
  have second : Text.Joins lines "cat <<JSON\n[\r1,]\r\nJSON".toList :=
    .next "cat <<JSON" (.inl rfl) (.next "[\r1,]" (.inr rfl) (.last "JSON"))
  obtain ⟨_, cut, joined, alike⟩ := line_endings_forgotten
  exact ⟨each, List.cons_ne_nil _ _, cut _ _ _ _ first each, cut _ _ _ _ second each,
    (joined lines (List.cons_ne_nil _ _)).2,
    (alike engine "a.sh" 1 _ _ (.inr ⟨lines, each, first, second⟩)).2⟩

end Heredoc
