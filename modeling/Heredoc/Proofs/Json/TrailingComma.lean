import Heredoc.Proofs.Json.Location
import Heredoc.Proofs.Json.Nesting

/-!
# A trailing comma is reported on the comma

A comma between the last item or member and the closing bracket of an array or object is noticed at
the bracket, perhaps lines later. Main statement: the one finding is an error at the comma itself
(`json_reports_trailing_comma`).
-/

namespace Heredoc.Json

open Nesting

/-! ## Which steps lead to a closing bracket -/

/-- An array or object has just been opened. -/
def Expecting.afterOpening : Expecting → Bool
  | .itemOrClose | .keyOrClose => true
  | _ => false

theorem takeValue_afterOpening
    {frames : List Frame} {token : Token} {after : Nesting}
    (taken : takeValue frames token = .ok after)
    (opened : after.expecting.afterOpening = true) :
    token.kind = .openArray ∨ token.kind = .openObject := by
  unfold takeValue at taken
  split at taken
  case h_4 number _ =>
    cases read : number.value with
    | error problem =>
        rw [read] at taken
        cases taken
    | ok value =>
        rw [read] at taken
        cases taken
        cases opened
  case h_5 => exact .inl ‹_›
  case h_6 => exact .inr ‹_›
  all_goals
    cases taken
    try cases opened

theorem takeKey_afterOpening
    {frames : List Frame} {token : Token} {after : Nesting}
    (taken : takeKey frames token = .ok after) :
    after.expecting.afterOpening = false := by
  unfold takeKey at taken
  split at taken
  · split at taken
    all_goals
      cases taken
      rfl
  all_goals cases taken

theorem takeSeparator_afterOpening
    {frames : List Frame} {token : Token} {after : Nesting}
    (taken : takeSeparator frames token = .ok after) :
    after.expecting.afterOpening = false := by
  unfold takeSeparator at taken
  split at taken
  all_goals
    cases taken
    try rfl

theorem step_afterOpening
    {before after : Nesting} {token : Token}
    (steps : before.step token = .ok after)
    (opened : after.expecting.afterOpening = true) :
    token.kind = .openArray ∨ token.kind = .openObject := by
  have notKey (taken : takeKey before.frames token = .ok after) : False := by
    rw [takeKey_afterOpening taken] at opened
    cases opened
  unfold Nesting.step at steps
  split at steps
  case h_1 => exact takeValue_afterOpening steps opened
  case h_2 =>
    split at steps
    · cases steps
      cases opened
    · cases steps
    · exact takeValue_afterOpening steps opened
  case h_3 =>
    split at steps
    · cases steps
    · exact takeValue_afterOpening steps opened
  case h_4 =>
    split at steps
    · cases steps
      cases opened
    · cases steps
    · exact (notKey steps).elim
  case h_5 =>
    split at steps
    · cases steps
    · cases steps
    · exact (notKey steps).elim
  case h_6 =>
    split at steps
    · cases steps
      cases opened
    all_goals cases steps
  case h_7 =>
    rw [takeSeparator_afterOpening steps] at opened
    cases opened
  case h_8 => cases steps

theorem Symbol.exists_reads (symbol : Symbol) : ∃ token, symbol.Reads token := by
  cases symbol with
  | openArray => exact ⟨⟨.openArray, 0, 0⟩, .openArray⟩
  | closeArray => exact ⟨⟨.closeArray, 0, 0⟩, .closeArray⟩
  | openObject => exact ⟨⟨.openObject, 0, 0⟩, .openObject⟩
  | closeObject => exact ⟨⟨.closeObject, 0, 0⟩, .closeObject⟩
  | comma => exact ⟨⟨.comma, 0, 0⟩, .comma⟩
  | colon => exact ⟨⟨.colon, 0, 0⟩, .colon⟩
  | null => exact ⟨⟨.null, 0, 0⟩, .null⟩
  | bool value => exact ⟨⟨.bool value, 0, 0⟩, .bool⟩
  | number numeral => exact ⟨⟨.number (numeral.number 0 0), 0, 0⟩, .number⟩
  | text value => exact ⟨⟨.text value, 0, 0⟩, .text⟩

/-- An opening bracket stands at the end. -/
def EndsOpen (symbols : List Symbol) : Prop :=
  symbols.getLast? = some .openArray ∨ symbols.getLast? = some .openObject

/-- Only an opening bracket leads to where a bracket may be closed at once. -/
theorem Runs.endsOpen
    {front : List Symbol} {after : Nesting}
    (runs : Runs front Nesting.start after)
    (opened : after.expecting.afterOpening = true) :
    EndsOpen front := by
  rcases List.eq_nil_or_concat front with rfl | ⟨init, last, rfl⟩
  · cases runs
    cases opened
  rw [List.concat_eq_append] at runs
  rw [EndsOpen, List.concat_eq_append, List.getLast?_concat]
  obtain ⟨middle, _, final⟩ := runs.exists_of_append
  cases final with
  | cons steps nothing =>
      cases nothing
      obtain ⟨token, reads⟩ := last.exists_reads
      have kind := step_afterOpening (steps token reads) opened
      cases reads with
      | openArray => exact .inl rfl
      | openObject => exact .inr rfl
      | _ => rcases kind with kind | kind <;> cases kind

/-- A comma may stand where a bracket that is not empty is closed, and then the bracket may not. -/
theorem exists_step_comma
    {before after : Nesting} {close : Symbol} {token : Token}
    (closes : close = .closeArray ∨ close = .closeObject)
    (reads : close.Reads token)
    (steps : before.step token = .ok after)
    (filled : before.expecting.afterOpening = false) :
    ∃ middle,
      (∀ start stop, before.step ⟨.comma, start, stop⟩ = .ok middle) ∧
        middle.step token = .error (token.unexpected .trailingComma) := by
  obtain ⟨frames, expecting⟩ := before
  rcases closes with rfl | rfl
  · cases reads
    cases expecting with
    | separator =>
        cases frames with
        | nil => cases steps
        | cons frame outer =>
            cases frame with
            | array => exact ⟨⟨.array :: outer, .item⟩, fun _ _ => rfl, rfl⟩
            | object seen => cases steps
    | itemOrClose => cases filled
    | keyOrClose => cases filled
    | _ => cases steps
  · cases reads
    cases expecting with
    | separator =>
        cases frames with
        | nil => cases steps
        | cons frame outer =>
            cases frame with
            | array => cases steps
            | object seen => exact ⟨⟨.object seen :: outer, .key⟩, fun _ _ => rfl, rfl⟩
    | itemOrClose => cases filled
    | keyOrClose => cases filled
    | _ => cases steps

/-! ## From the bracket to the comma -/

/-- No message of a problem in the form of a text has anything in it that looks like a location. -/
theorem diagnosticOf_message
    (cause : Cause) (syntactic : cause.isContent = false) (index : Nat) (text : List Char) :
    (diagnosticOf text ⟨cause, index⟩).message = cause.message := by
  have found :
      Text.before? " at line ".toList (cause.message.toList ++ " at line ".toList) =
        some cause.message.toList := by
    cases cause with
    | content message => cases syntactic
    | _ => decide +kernel
  have shown :
      ∃ tail,
        (Problem.message ⟨cause, index⟩ text).toList =
          cause.message.toList ++ " at line ".toList ++ tail := by
    simp only [Problem.message, String.toList_append]
    rw [List.append_assoc, List.append_assoc]
    exact ⟨_, rfl⟩
  obtain ⟨tail, shown⟩ := shown
  change Text.stripLocation (Problem.message ⟨cause, index⟩ text) = cause.message
  rw [Text.stripLocation, shown, Text.before?_append found]
  exact String.ofList_toList

theorem isBlank_of_isSpace {c : Char} (space : isSpace c = true) : Text.isBlank c = true := by
  simp only [isSpace, Bool.or_eq_true, beq_iff_eq] at space
  rcases space with ((rfl | rfl) | rfl) | rfl
  all_goals decide

theorem toTrailingComma_bracket
    {bracket : Char} {before blank rest : List Char}
    (closes : bracket = ']' ∨ bracket = '\x7d')
    (spaces : ∀ c ∈ blank, isSpace c = true) :
    toTrailingComma (before ++ ',' :: blank ++ bracket :: rest)
        (Text.byteLength (before ++ ',' :: blank)) =
      Text.byteLength before := by
  have shown := Text.charAt?_byteLength_append (before ++ ',' :: blank) (bracket :: rest)
  have isBracket : some bracket = some '\x7d' ∨ some bracket = some ']' := by
    rcases closes with rfl | rfl
    · exact .inr rfl
    · exact .inl rfl
  have trimmed : Text.trimEnd (before ++ ',' :: blank) = before ++ [','] :=
    Text.trimEnd_append_of_isBlank (fun c member => isBlank_of_isSpace (spaces c member)) rfl before
  have size : Text.byteLength (before ++ [',']) = Text.byteLength before + 1 :=
    Text.byteLength_append before [',']
  simp only [toTrailingComma]
  rw [shown, List.head?_cons, if_pos isBracket, Text.fitting_byteLength_append, trimmed,
    List.getLast?_concat, if_pos rfl, size, Nat.add_sub_cancel]

theorem eq_error_of_parts
    {finding : LocalDiagnostic} {message : String} {range : Range}
    (isMessage : finding.message = message)
    (isSeverity : finding.severity = .error)
    (isRange : finding.range = some range) :
    finding = .error message range := by
  obtain ⟨_, _, _⟩ := finding
  cases isMessage
  cases isSeverity
  cases isRange
  rfl

theorem diagnosticOf_trailingComma
    {bracket : Char} {before blank rest : List Char}
    (closes : bracket = ']' ∨ bracket = '\x7d')
    (spaces : ∀ c ∈ blank, isSpace c = true) :
    diagnosticOf (before ++ ',' :: blank ++ bracket :: rest)
        ⟨.trailingComma, Text.byteLength (before ++ ',' :: blank) + 1⟩ =
      .error "trailing comma" (Text.rangeAfter before) := by
  have ascii : bracket.utf8Size = 1 ∧ bracket ≠ '\n' := by
    rcases closes with rfl | rfl
    all_goals decide
  have reported :=
    reportedOffset_append ascii.1 ascii.2 .trailingComma (before ++ ',' :: blank) rest
  have moved :
      toTrailingComma (before ++ ',' :: blank ++ bracket :: rest) _ = Text.byteLength before :=
    toTrailingComma_bracket closes spaces
  have whole :
      before ++ ',' :: blank ++ bracket :: rest = before ++ ',' :: (blank ++ bracket :: rest) := by
    rw [List.append_assoc, List.cons_append]
  rw [← reported, whole] at moved
  rw [whole]
  generalize Text.byteLength (before ++ ',' :: blank) + 1 = index at moved ⊢
  have range := diagnosticOf_range ⟨.trailingComma, index⟩ moved
  have nothing : (',' :: (blank ++ bracket :: rest)).takeWhile isInlineBlank = [] := rfl
  rw [nothing, List.append_nil] at range
  have message :
      (diagnosticOf (before ++ ',' :: (blank ++ bracket :: rest)) ⟨.trailingComma, index⟩).message =
        "trailing comma" :=
    diagnosticOf_message .trailingComma rfl index _
  have severity :
      (diagnosticOf (before ++ ',' :: (blank ++ bracket :: rest))
        ⟨.trailingComma, index⟩).severity = .error :=
    rfl
  exact eq_error_of_parts message severity range

/-- The check stops at the bracket after the comma. -/
theorem firstProblem_of_trailingComma
    {tree : Tree} {front back : List Symbol} {close : Symbol} {bracket : Char}
    {before blank rest : List Char}
    (accepted : tree.Accepted)
    (shallow : tree.depth ≤ depthLimit)
    (written : tree.symbols = front ++ close :: back)
    (closes : close = .closeArray ∧ bracket = ']' ∨ close = .closeObject ∧ bracket = '\x7d')
    (filled : ¬ EndsOpen front)
    (laid : Lays front before)
    (spaces : ∀ c ∈ blank, isSpace c = true) :
    firstProblem (before ++ ',' :: blank ++ bracket :: rest) =
      some ⟨.trailingComma, Text.byteLength (before ++ ',' :: blank) + 1⟩ := by
  have runs := tree.runs accepted [] (by rw [List.length_nil]; omega) .value .value
  have apart := tree.isChain_symbols
  rw [written] at runs apart
  obtain ⟨middle, runsFront, runsBack⟩ := runs.exists_of_append
  have notOpened : middle.expecting.afterOpening = false := by
    rw [Bool.eq_false_iff]
    intro opened
    exact filled (runsFront.endsOpen opened)
  have size :
      Text.byteLength before + 1 + Text.byteLength blank =
        Text.byteLength (before ++ ',' :: blank) := by
    rw [Text.byteLength_append, Text.byteLength, Nat.add_assoc]
    rfl
  have commaRead :
      tokensFrom (Text.byteLength before) (',' :: (blank ++ bracket :: rest)) =
        ⟨.comma, Text.byteLength before, Text.byteLength before + 1⟩ ::
          tokensFrom (Text.byteLength (before ++ ',' :: blank)) (bracket :: rest) := by
    rw [tokensFrom_mark rfl rfl rfl, tokensFrom_spaces spaces, size]
  obtain ⟨token, more, bracketRead, reads, peek⟩ :
      ∃ token more,
        tokensFrom (Text.byteLength (before ++ ',' :: blank)) (bracket :: rest) = token :: more ∧
          close.Reads token ∧
          token.peekIndex = Text.byteLength (before ++ ',' :: blank) + 1 := by
    rcases closes with ⟨rfl, rfl⟩ | ⟨rfl, rfl⟩
    · exact ⟨_, _, tokensFrom_mark rfl rfl rfl, .closeArray, Nat.min_self _⟩
    · exact ⟨_, _, tokensFrom_mark rfl rfl rfl, .closeObject, Nat.min_self _⟩
  cases runsBack with
  | cons steps later =>
      obtain ⟨next, takesComma, refuses⟩ :=
        exists_step_comma (closes.imp And.left And.left) reads (steps token reads) notOpened
      have stops : StopsNumber (',' :: (blank ++ bracket :: rest)) := stopsNumber_cons rfl _
      rw [List.append_assoc, List.cons_append,
        firstProblem_append laid apart.left_of_append stops runsFront, commaRead, bracketRead,
        List.foldlM_cons, takesComma, ← peek]
      simp only [bind, Except.bind, List.foldlM_cons, refuses]
      rfl

/-- A comma after the last item or member of an array or object, at any depth, gives one finding: an
error at that comma. -/
theorem json_reports_trailing_comma
    {tree : Tree} {front back : List Symbol} {close : Symbol} {before after : List Char}
    (distinct : tree.Distinct)
    (inRange : tree.InRange)
    (shallow : tree.depth ≤ 127)
    (written : tree.symbols = front ++ close :: back)
    (closes : close = .closeArray ∨ close = .closeObject)
    (filled : ¬ EndsOpen front)
    (laidFront : Lays front before)
    (laidBack : Lays (close :: back) after) :
    Validator.json.run (String.ofList (before ++ ',' :: after)) =
      .findings [.error "trailing comma" (Text.rangeAfter before)] := by
  obtain ⟨blank, spelled, rest, rfl, spaces, spells, _⟩ := laidBack.exists_of_cons
  obtain ⟨bracket, rfl, brackets⟩ :
      ∃ bracket,
        spelled = [bracket] ∧
          (close = .closeArray ∧ bracket = ']' ∨ close = .closeObject ∧ bracket = '\x7d') := by
    rcases closes with rfl | rfl
    · cases spells
      exact ⟨']', rfl, .inl ⟨rfl, rfl⟩⟩
    · cases spells
      exact ⟨'\x7d', rfl, .inr ⟨rfl, rfl⟩⟩
  have whole :
      before ++ ',' :: (blank ++ ([bracket] ++ rest)) =
        before ++ ',' :: blank ++ bracket :: rest := by
    rw [List.append_assoc]
    rfl
  have problem : firstProblem (before ++ ',' :: blank ++ bracket :: rest) = some _ :=
    firstProblem_of_trailingComma ⟨distinct, inRange⟩ shallow written brackets filled laidFront
      spaces
  have comma : ',' ∈ before ++ ',' :: blank ++ bracket :: rest := by
    rw [List.append_assoc]
    exact List.mem_append_right before List.mem_cons_self
  rw [whole, json_run_of_problem comma rfl problem,
    diagnosticOf_trailingComma (brackets.imp And.right And.right) spaces]

/-- The comma of the inner array stands on a line of its own, after text that is not ASCII. -/
theorem json_reports_trailing_comma_own_line :
    Validator.json.run "\x7b\"é\":[1\n , ]\x7d" =
      .findings [.error "trailing comma" (.singleChar 1 1)] := by
  have distinct : (Tree.object [("é", .array [.number (.ofNat 1)])]).Distinct := by
    rw [Tree.distinct_object_iff]
    refine ⟨List.pairwise_singleton _ _, ?_⟩
    intro key value member
    cases List.mem_singleton.mp member
    rw [Tree.distinct_array_iff]
    intro item inItems
    rw [List.mem_singleton.mp inItems]
    exact Tree.distinct_number _
  have inRange : (Tree.object [("é", .array [.number (.ofNat 1)])]).InRange := by
    rw [Tree.inRange_object_iff]
    intro key value member
    cases List.mem_singleton.mp member
    rw [Tree.inRange_array_iff]
    intro item inItems
    rw [List.mem_singleton.mp inItems]
    exact Tree.inRange_number_iff.mpr (Numeral.inRange_ofNat (by decide))
  have spelled : SpellsText "é".toList ['é'] := spellsText_flatMap_escapeChar ['é']
  have key : (Symbol.text "é").Spells ['"', 'é', '"'] := .text spelled
  have one : (Symbol.number (.ofNat 1)).Spells ['1'] :=
    .number (Numeral.spells_ofNat 1)
  have laidOpening :
      Lays [.openObject, .text "é", .colon, .openArray] ['\x7b', '"', 'é', '"', ':', '['] :=
    (Lays.single .openObject).append
      ((Lays.single key).append ((Lays.single .colon).append (.single .openArray)))
  have spacesBefore : ∀ c ∈ ['\n', ' '], isSpace c = true := List.all_eq_true.mp (by decide)
  have spacesAfter : ∀ c ∈ [' '], isSpace c = true := List.all_eq_true.mp (by decide)
  have laidItem : Lays [.number (.ofNat 1)] ['1', '\n', ' '] :=
    (Lays.single one).append_spaces spacesBefore
  have laidBack : Lays [.closeArray, .closeObject] [' ', ']', '\x7d'] :=
    .cons spacesAfter .closeArray (.single .closeObject)
  have filled :
      ¬ EndsOpen ([.openObject, .text "é", .colon, .openArray] ++ [.number (.ofNat 1)]) := by
    rintro (last | last)
    all_goals cases last
  have reported :=
    json_reports_trailing_comma distinct inRange (by decide) rfl (.inl rfl) filled
      (laidOpening.append laidItem) laidBack
  have place :
      Text.rangeAfter (['\x7b', '"', 'é', '"', ':', '['] ++ ['1', '\n', ' ']) =
        .singleChar 1 1 := by
    decide +kernel
  have text :
      String.ofList (['\x7b', '"', 'é', '"', ':', '['] ++ ['1', '\n', ' '] ++ ',' ::
          [' ', ']', '\x7d']) =
        "\x7b\"é\":[1\n , ]\x7d" := by
    decide +kernel
  rw [place, text] at reported
  exact reported

/-! ## A number out of range comes first -/

/-- The numeral `1e999`. -/
def hugeNumeral : Numeral where
  negative := false
  whole := ['1']
  isWhole := ⟨List.all_eq_true.mp (by decide), by decide, by decide⟩
  exponent := some (false, ⟨['9', '9', '9'], List.all_eq_true.mp (by decide), by decide⟩)

theorem spells_hugeNumeral : hugeNumeral.Spells ['1', 'e', '9', '9', '9'] :=
  .written (.present (.inl rfl) .nothing)

theorem value_hugeNumeral (start stop : Nat) :
    (hugeNumeral.number start stop).value = .error ⟨.numberOutOfRange, stop⟩ := by
  have parts : (hugeNumeral.number start stop).parts = (1, 0) := by
    have closed : (hugeNumeral.number 0 0).parts = (1, 0) := by decide +kernel
    exact closed
  have exponent : Number.readExponent 0 0 ['9', '9', '9'] = (some 999, 3) := by decide +kernel
  have scaled : Number.scale false 1 999 = none := by decide +kernel
  rw [Number.value, parts]
  simp only [Numeral.number, hugeNumeral, Option.map_some, exponent, Bool.false_eq_true, if_false]
  have shifted : (0 : Int) + (999 : Nat) = 999 := rfl
  rw [shifted, scaled]

theorem firstProblem_huge :
    firstProblem (['[', '1', 'e', '9', '9', '9'] ++ ',' :: [']']) =
      some ⟨.numberOutOfRange, 6⟩ := by
  have stops : StopsNumber [',', ']'] := stopsNumber_cons rfl [']']
  obtain ⟨start, read⟩ := tokensFrom_numeral spells_hugeNumeral stops 1
  have size : 1 + ['1', 'e', '9', '9', '9'].length = 6 := rfl
  rw [size] at read
  have opened : Nesting.start.step ⟨.openArray, 0, 1⟩ = .ok ⟨[.array], .itemOrClose⟩ := rfl
  have refused :
      Nesting.step ⟨[.array], .itemOrClose⟩ ⟨.number (hugeNumeral.number start 6), 1, 6⟩ =
        .error ⟨.numberOutOfRange, 6⟩ := by
    rw [step_of_takesValue .number nofun .itemOrClose, takeValue]
    dsimp only
    rw [value_hugeNumeral]
    rfl
  rw [firstProblem, tokens, List.cons_append, tokensFrom_mark rfl rfl rfl, read, List.foldlM_cons,
    opened]
  simp only [bind, Except.bind, List.foldlM_cons, refused]

/-- Numbers have to be in range: the check of `[1e999,]` stops at the number, before the comma. -/
theorem trailing_comma_missed_after_huge_number :
    ¬ ∀ (tree : Tree) (front back : List Symbol) (close : Symbol) (before after : List Char),
      tree.Distinct →
        tree.depth ≤ 127 →
        tree.symbols = front ++ close :: back →
        (close = .closeArray ∨ close = .closeObject) →
        ¬ EndsOpen front →
        Lays front before →
        Lays (close :: back) after →
        Validator.json.run (String.ofList (before ++ ',' :: after)) =
          .findings [.error "trailing comma" (Text.rangeAfter before)] := by
  intro every
  have distinct : (Tree.array [.number hugeNumeral]).Distinct := by
    rw [Tree.distinct_array_iff]
    intro item member
    rw [List.mem_singleton.mp member]
    exact Tree.distinct_number _
  have filled : ¬ EndsOpen [.openArray, .number hugeNumeral] := by
    rintro (last | last)
    all_goals cases last
  have laidFront : Lays [.openArray, .number hugeNumeral] ['[', '1', 'e', '9', '9', '9'] :=
    (Lays.single .openArray).append (.single (.number spells_hugeNumeral))
  have claimed :=
    every (.array [.number hugeNumeral]) [.openArray, .number hugeNumeral] [] .closeArray _ [']']
      distinct (by decide) rfl (.inl rfl) filled laidFront (.single .closeArray)
  have solid : '[' ∈ ['[', '1', 'e', '9', '9', '9'] ++ ',' :: [']'] :=
    List.mem_append_left _ List.mem_cons_self
  rw [json_run_of_problem solid rfl firstProblem_huge] at claimed
  have message :=
    congrArg LocalDiagnostic.message (List.cons.inj (Outcome.findings.inj claimed)).1
  have shown :=
    diagnosticOf_message .numberOutOfRange rfl 6
      (['[', '1', 'e', '9', '9', '9'] ++ ',' :: [']'])
  have different : "number out of range" ≠ "trailing comma" := by decide
  exact different (shown.symm.trans message)

end Heredoc.Json
