import Heredoc.Proofs.Engine.Concatenation
import Heredoc.Proofs.Engine.Coordinates
import Heredoc.Proofs.Json.Location
import Heredoc.Proofs.Xml.Location

/-!
# Findings stay inside their bodies

The validators for JSON and XML are taken here with any parser and any reader in place of those of
this library: whatever place these report, even one past the end or inside a character, the
diagnostic marks a character of a body line or the place after the last one
(`diagnostics_inside_body`).
-/

namespace Heredoc

/-! ## Any parser and any reader -/

namespace Validator

/-- A validator that takes no time, and crashes if its check cuts the text where it cannot be. -/
def ofCuts (key : String) (check? : String → Option (Option LocalDiagnostic)) : Validator where
  key
  duration _ := 0
  run body :=
    match check? body with
    | some finding => .findings finding.toList
    | none => .crashed none

/-- The JSON validator with this parser in place of its own. -/
def jsonWith (parse : List Char → Option Json.Refusal) : Validator :=
  ofCuts "json" (Json.check? parse)

/-- The XML validator with this reader in place of its own. -/
def xmlWith (read : List Char → List Xml.Reading) : Validator :=
  ofCuts "xml" (Xml.check? read)

theorem run_ofCuts
    {check? : String → Option (Option LocalDiagnostic)} {body : String}
    {finding : Option LocalDiagnostic} (key : String) (checked : check? body = some finding) :
    (ofCuts key check?).run body = .findings finding.toList := by
  simp only [ofCuts, checked]

theorem ofCuts_eq
    {check? : String → Option (Option LocalDiagnostic)}
    {check : String → Option LocalDiagnostic}
    (key : String) (same : ∀ body, check? body = some (check body)) :
    ofCuts key check? = ofCheck key check := by
  simp only [ofCuts, ofCheck, same]

theorem jsonWith_refusal? : jsonWith Json.refusal? = json :=
  ofCuts_eq "json" Json.check?_refusal?

theorem xmlWith_readings : xmlWith Xml.readings = xml :=
  ofCuts_eq "xml" Xml.check?_readings

end Validator

/-! ## Places in a text -/

namespace Text

variable {cs : List Char} {offset : Nat}

theorem toNat_line_positionAt
    (fits : (fitting offset cs).count '\n' < UInt32.size) :
    (positionAt cs offset).line.toNat = (fitting offset cs).count '\n' := by
  simp only [positionAt]
  exact toNat_clamp32_of_lt fits

theorem toNat_character_positionAt
    (fits : (lastLine (fitting offset cs)).length < UInt32.size) :
    (positionAt cs offset).character.toNat = (lastLine (fitting offset cs)).length := by
  simp only [positionAt]
  exact toNat_clamp32_of_lt fits

end Text

/-- The finding marks one character, at the position of some byte offset of the text. -/
def LocalDiagnostic.Marks (finding : LocalDiagnostic) (text : List Char) : Prop :=
  ∃ offset,
    finding.range =
      some (.singleChar (Text.positionAt text offset).line (Text.positionAt text offset).character)

namespace Validator

/-- The validator answers every text, with findings that mark it, and with none if it is empty. -/
def MarksText (validator : Validator) : Prop :=
  ∀ body, ∃ found,
    validator.run body = .findings found ∧
      (∀ finding ∈ found, finding.Marks body.toList) ∧ (body = "" → found = [])

theorem marksText_jsonWith (parse : List Char → Option Json.Refusal) :
    (jsonWith parse).MarksText := by
  intro body
  have answered := run_ofCuts "json" (Json.check?_eq parse body)
  refine ⟨_, answered, ?_, ?_⟩
  · intro finding member
    rw [Option.mem_toList] at member
    split at member
    · cases member
    · obtain ⟨refusal, _, rfl⟩ := Option.map_eq_some_iff.mp member
      exact ⟨refusal.offset body.toList, rfl⟩
  · rintro rfl
    rfl

theorem marksText_xmlWith
    {read : List Char → List Xml.Reading} (ends : read [] = []) :
    (xmlWith read).MarksText := by
  intro body
  have answered := run_ofCuts "xml" (Xml.check?_eq read body)
  refine ⟨_, answered, ?_, ?_⟩
  · intro finding member
    rw [Option.mem_toList] at member
    obtain ⟨complaint, _, rfl⟩ := Option.map_eq_some_iff.mp member
    exact ⟨complaint.offset, rfl⟩
  · rintro rfl
    have empty : ("" : String).toList = [] := rfl
    rw [empty, ends, Xml.complaint?_nil]
    rfl

end Validator

/-! ## Places in a body -/

/-- The range is one character of a body line, or the place after its last character. -/
structure Range.InBody (range : Range) (document : Document) (region : Region) : Prop where
  first : region.bodyStart ≤ range.start.line.toNat
  last : range.start.line.toNat < region.bodyEnd
  character :
    ∃ line,
      document.line range.start.line.toNat = some line ∧
        range.start.character.toNat ≤ line.length
  stop_line : range.stop.line = range.start.line
  stop_character : range.stop.character.toNat = range.start.character.toNat + 1

namespace Document

variable {document : Document} {region : Region}

theorem IsCut.exists_bodyLine
    {before : List Char}
    (cut : document.IsCut) (inside : region.bodyEnd ≤ document.lines.length)
    (nonempty : region.isEmpty = false)
    (front : before <+: (document.view.bodyText region).toList) :
    before.count '\n' < region.bodyLength ∧
      ∃ line,
        document.line (region.bodyStart + before.count '\n') = some line ∧
          (Text.lastLine before).length ≤ line.length := by
  obtain ⟨line, shown, part⟩ := Text.exists_line_of_prefix front
  rw [cut.splitLines_bodyText inside nonempty, List.getElem?_map] at shown
  obtain ⟨bodyLine, bodyShown, rfl⟩ := Option.map_eq_some_iff.mp shown
  have below : before.count '\n' < region.bodyLength := by
    rw [← length_bodyLines inside]
    exact (List.getElem?_eq_some_iff.mp bodyShown).1
  have partLength := part.length_le
  rw [String.length_toList] at partLength
  rw [getElem?_bodyLines below] at bodyShown
  exact ⟨below, bodyLine, bodyShown, partLength⟩

theorem IsCut.inBody
    {finding : LocalDiagnostic} {key : String} {placed : Diagnostic}
    (cut : document.IsCut) (short : document.lines.length < UInt32.size)
    (narrow : ∀ line ∈ document.lines, line.length < UInt32.size - 1)
    (inside : region.bodyEnd ≤ document.lines.length) (nonempty : region.isEmpty = false)
    (marks : finding.Marks (document.view.bodyText region).toList)
    (put : finding.place? region.bodyStart key = some placed) :
    placed.range.InBody document region := by
  obtain ⟨offset, ranged⟩ := marks
  obtain ⟨below, line, shown, fits⟩ :=
    cut.exists_bodyLine inside nonempty (Text.fitting_prefix offset _)
  have narrowLine := narrow line (List.mem_of_getElem? shown)
  have bodyShort : region.bodyLength < UInt32.size := by
    rw [Region.bodyLength]
    omega
  -- Neither the line nor the character is too large to be written in 32 bits.
  have atLine := Text.toNat_line_positionAt (Nat.lt_trans below bodyShort)
  have atCharacter := Text.toNat_character_positionAt (Nat.lt_of_le_of_lt fits (by omega))
  generalize Text.positionAt (document.view.bodyText region).toList offset = at_
    at ranged atLine atCharacter
  have within : finding.Within (.singleChar at_.line at_.character) region.bodyLength :=
    ⟨ranged, atLine ▸ below, atLine ▸ below⟩
  obtain ⟨placed', put', carried⟩ := cut.exists_carries short inside within key
  obtain rfl : placed = placed' := Option.some.inj (put.symm.trans put')
  have startLine := carried.start_line.trans (congrArg (region.bodyStart + ·) atLine)
  have stopLine := carried.stop_line.trans (congrArg (region.bodyStart + ·) atLine)
  rw [Region.bodyLength] at below
  refine
    { first := ?_
      last := ?_
      character := ⟨line, ?_, ?_⟩
      stop_line := UInt32.toNat_inj.mp (stopLine.trans startLine.symm)
      stop_character := ?_ }
  · rw [startLine]
    exact Nat.le_add_right _ _
  · rw [startLine]
    omega
  · rw [startLine]
    exact shown
  · rw [carried.start_character]
    exact Nat.le_trans (Nat.le_of_eq atCharacter) fits
  · rw [carried.start_character, carried.stop_character]
    exact toNat_clamp32_of_lt (by omega)

end Document

/-! ## Diagnostics of one region -/

namespace Engine

variable {engine : Engine} {document : Document} {region : Region} {key : String}
  {validator : Validator}

theorem diagnose_append_cons
    {left right : List Region}
    (found : scan engine.tags document.view = .ok (left ++ region :: right)) :
    engine.diagnose document.view =
      .ok ((engine.dispatch document.view left).diagnostics ++
        (engine.dispatchRegion document.view region).diagnostics ++
          (engine.dispatch document.view right).diagnostics) := by
  rw [document.scan_view] at found
  rw [engine.diagnose_view, Except.ok.inj found, List.flatMap_append, List.flatMap_cons,
    diagnostics_dispatch_eq_flatMap, diagnostics_dispatch_eq_flatMap, List.append_assoc]

theorem exists_finding_of_malformed
    {view : View} {found : List LocalDiagnostic} {diagnostic : Diagnostic}
    (routed : engine.validatorFor? region.tag = some (key, validator))
    (answered : validator.run (view.bodyText region) = .findings found)
    (member : diagnostic ∈ (engine.dispatchRegion view region).diagnostics)
    (malformed : diagnostic.code = .malformed) :
    ∃ finding ∈ found, finding.place? region.bodyStart key = some diagnostic := by
  simp only [dispatchRegion, routed] at member
  by_cases tooLarge : (view.bodyText region).utf8ByteSize > engine.settings.maxBytes
  · rw [if_pos tooLarge, List.mem_singleton] at member
    rw [member] at malformed
    cases malformed
  · rw [if_neg tooLarge, answered] at member
    exact List.mem_filterMap.mp member

theorem diagnostics_of_isEmpty
    (inside : region.bodyEnd ≤ document.lines.length) (empty : region.isEmpty = true)
    (routed : engine.validatorFor? region.tag = some (key, validator))
    (marking : validator.MarksText) :
    (engine.dispatchRegion document.view region).diagnostics = [] := by
  have noLine : document.bodyLines region = [] := by
    rw [← List.length_eq_zero_iff, Document.length_bodyLines inside]
    exact of_decide_eq_true empty
  have noText : document.view.bodyText region = "" := by
    rw [Document.bodyText_view inside, noLine]
    rfl
  obtain ⟨found, answered, _, none⟩ := marking ""
  have notTooLarge : ¬ ("" : String).utf8ByteSize > engine.settings.maxBytes := Nat.not_lt_zero _
  simp only [dispatchRegion, routed, noText, if_neg notTooLarge, answered, none rfl]
  rfl

theorem inBody_of_malformed
    {diagnostic : Diagnostic}
    (cut : document.IsCut) (short : document.lines.length < UInt32.size)
    (narrow : ∀ line ∈ document.lines, line.length < UInt32.size - 1)
    (inside : region.bodyEnd ≤ document.lines.length)
    (routed : engine.validatorFor? region.tag = some (key, validator))
    (marking : validator.MarksText)
    (member : diagnostic ∈ (engine.dispatchRegion document.view region).diagnostics)
    (malformed : diagnostic.code = .malformed) :
    diagnostic.range.InBody document region := by
  cases empty : region.isEmpty with
  | true =>
      rw [diagnostics_of_isEmpty inside empty routed marking] at member
      cases member
  | false =>
      obtain ⟨found, answered, marks, _⟩ := marking (document.view.bodyText region)
      obtain ⟨finding, present, put⟩ :=
        exists_finding_of_malformed routed answered member malformed
      exact cut.inBody short narrow inside empty (marks finding present) put

end Engine

/-- Whatever place is reported for a body of JSON or XML, no cut of the text fails, and what comes
of the body is inside it. -/
theorem diagnostics_inside_body
    (parse : List Char → Option Json.Refusal)
    (read : List Char → List Xml.Reading) (ends : read [] = [])
    (engine : Engine) (id : BufferId) (version : Nat) (text : String) (document : Document)
    (made : document = .ofText id version text)
    (short : document.lines.length < UInt32.size)
    (narrow : ∀ line ∈ document.lines, line.length < UInt32.size - 1)
    (left right : List Region) (region : Region)
    (found : scan engine.tags document.view = .ok (left ++ region :: right))
    (key : String) (validator : Validator)
    (routed : engine.validatorFor? region.tag = some (key, validator))
    (known : validator = .jsonWith parse ∨ validator = .xmlWith read) :
    (∀ body, (Json.check? parse body).isSome = true ∧ (Xml.check? read body).isSome = true) ∧
    engine.diagnose document.view =
      .ok ((engine.dispatch document.view left).diagnostics ++
        (engine.dispatchRegion document.view region).diagnostics ++
          (engine.dispatch document.view right).diagnostics) ∧
    (∀ diagnostic ∈ (engine.dispatchRegion document.view region).diagnostics,
      diagnostic.code = .malformed → diagnostic.range.InBody document region) ∧
    (region.isEmpty = true → (engine.dispatchRegion document.view region).diagnostics = []) ∧
    Validator.jsonWith Json.refusal? = .json ∧ Validator.xmlWith Xml.readings = .xml ∧
      Xml.readings [] = [] := by
  have cut : document.IsCut := made ▸ Document.isCut_ofText id version text
  have inside : region.bodyEnd ≤ document.lines.length :=
    Nat.le_of_lt (Document.bodyEnd_lt_of_scan found (by simp))
  have marking : validator.MarksText := by
    rcases known with rfl | rfl
    · exact Validator.marksText_jsonWith parse
    · exact Validator.marksText_xmlWith ends
  refine ⟨fun body => ?_, Engine.diagnose_append_cons found, fun diagnostic member malformed => ?_,
    fun empty => ?_, Validator.jsonWith_refusal?, Validator.xmlWith_readings, Xml.readings_nil⟩
  · rw [Json.check?_eq, Xml.check?_eq]
    exact ⟨rfl, rfl⟩
  · exact Engine.inBody_of_malformed cut short narrow inside routed marking member malformed
  · exact Engine.diagnostics_of_isEmpty inside empty routed marking

/-- An engine for JSON and XML. -/
def structured : Engine where
  tags := ⟨[("JSON", "json"), ("XML", "xml")]⟩
  validators := .registerAll .empty [.json, .xml]
  settings := {}

/-- A trailing comma in front of a bracket on the next line, a tag that is still open where the body
ends, and a body without lines. -/
def threeBodies : Document :=
  .ofText "a.sh" 1 "<<JSON\n[\"é\",\n]\nJSON\n<<XML\n<é>ü\nXML\n<<XML\nXML\n"

/-- The comma is marked on the line in front of the bracket, and the open tag after the last
character of the body. -/
theorem diagnostics_inside_body_threeBodies :
    let comma : Diagnostic :=
      ⟨"trailing comma", .error, ⟨⟨1, 4⟩, ⟨1, 5⟩⟩, "heredoc:json", .malformed⟩
    let unclosed : Diagnostic :=
      ⟨"unclosed tag <é>", .error, ⟨⟨5, 4⟩, ⟨5, 5⟩⟩, "heredoc:xml", .malformed⟩
    scan structured.tags threeBodies.view =
        .ok [⟨"JSON", 1, 3⟩, ⟨"XML", 5, 6⟩, ⟨"XML", 8, 8⟩] ∧
      (∃ left right, structured.diagnose threeBodies.view = .ok (left ++ [comma] ++ right)) ∧
      comma.range.InBody threeBodies ⟨"JSON", 1, 3⟩ ∧
      unclosed.range.InBody threeBodies ⟨"XML", 5, 6⟩ ∧
      (structured.dispatchRegion threeBodies.view ⟨"XML", 8, 8⟩).diagnostics = [] := by
  intro comma unclosed
  have found :
      scan structured.tags threeBodies.view =
        .ok [⟨"JSON", 1, 3⟩, ⟨"XML", 5, 6⟩, ⟨"XML", 8, 8⟩] := by
    have tags : structured.tags.tags = ["JSON", "XML"] := List.mergeSort_of_pairwise (by decide)
    rw [Document.scan_view, tags]
    decide +kernel
  have short : threeBodies.lines.length < UInt32.size := by decide +kernel
  have narrow : ∀ line ∈ threeBodies.lines, line.length < UInt32.size - 1 := by decide +kernel
  have general :=
    diagnostics_inside_body Json.refusal? Xml.readings Xml.readings_nil structured "a.sh" 1 _
      threeBodies rfl short narrow
  have json : structured.validatorFor? "JSON" = some ("json", .json) := rfl
  have xml : structured.validatorFor? "XML" = some ("xml", .xml) := rfl
  have commaFound :
      (structured.dispatchRegion threeBodies.view ⟨"JSON", 1, 3⟩).diagnostics = [comma] := by
    decide +kernel
  have unclosedFound :
      (structured.dispatchRegion threeBodies.view ⟨"XML", 5, 6⟩).diagnostics = [unclosed] := by
    decide +kernel
  obtain ⟨_, whole, inJson, _⟩ :=
    general [] [⟨"XML", 5, 6⟩, ⟨"XML", 8, 8⟩] ⟨"JSON", 1, 3⟩ found "json" _ json
      (.inl Validator.jsonWith_refusal?.symm)
  obtain ⟨_, _, inXml, _⟩ :=
    general [⟨"JSON", 1, 3⟩] [⟨"XML", 8, 8⟩] ⟨"XML", 5, 6⟩ found "xml" _ xml
      (.inr Validator.xmlWith_readings.symm)
  obtain ⟨_, _, _, empty, _⟩ :=
    general [⟨"JSON", 1, 3⟩, ⟨"XML", 5, 6⟩] [] ⟨"XML", 8, 8⟩ found "xml" _ xml
      (.inr Validator.xmlWith_readings.symm)
  rw [commaFound] at whole
  exact ⟨found, ⟨_, _, whole⟩, inJson comma (by rw [commaFound]; exact List.mem_cons_self) rfl,
    inXml unclosed (by rw [unclosedFound]; exact List.mem_cons_self) rfl, empty rfl⟩

end Heredoc
