import Heredoc.Diagnostic
import Heredoc.Json.Decode

/-!
# Diagnostics from JSON

How positions, ranges and diagnostics are read from JSON.
-/

namespace Heredoc

/-- The value of a field, or its name if it is missing. -/
def Json.required {α : Type} (name : String) (value : Option α) : Except String α :=
  match value with
  | some value => .ok value
  | none => .error name

namespace Position

/-- The fields of a position as far as they were read. -/
structure Draft where
  line : Option UInt32 := none
  character : Option UInt32 := none

/-- How a position is read. -/
def record : Json.Record Draft Position where
  name := "Position"
  fields :=
    [.slot "line" (·.line) (fun draft value => { draft with line := some value }) Json.word32,
     .slot "character" (·.character) (fun draft value => { draft with character := some value })
       Json.word32]
  start := {}
  closed := false
  mayBeShort := false
  finish draft := do
    return ⟨← Json.required "line" draft.line, ← Json.required "character" draft.character⟩

end Position

namespace Range

/-- The fields of a range as far as they were read. -/
structure Draft where
  start : Option Position := none
  stop : Option Position := none

/-- How a range is read. -/
def record : Json.Record Draft Range where
  name := "Range"
  fields :=
    [.slot "start" (·.start) (fun draft value => { draft with start := some value })
       Position.record.read,
     .slot "end" (·.stop) (fun draft value => { draft with stop := some value })
       Position.record.read]
  start := {}
  closed := false
  mayBeShort := false
  finish draft := do
    return ⟨← Json.required "start" draft.start, ← Json.required "end" draft.stop⟩

end Range

/-- Reads a severity. -/
def Severity.read : Json.Decoder Severity :=
  Json.choice Severity.ofName? (Severity.all.map Severity.name)

/-- Reads a code. -/
def Code.read : Json.Decoder Code :=
  Json.choice Code.ofName? (Code.all.map Code.name)

namespace LocalDiagnostic

/-- The fields of a finding as far as they were read. -/
structure Draft where
  message : Option String := none
  severity : Option Severity := none
  range : Option (Option Range) := none

/-- How a finding is read; its range may be missing. -/
def record : Json.Record Draft LocalDiagnostic where
  name := "LocalDiagnostic"
  fields :=
    [.slot "message" (·.message) (fun draft value => { draft with message := some value })
       Json.text,
     .slot "severity" (·.severity) (fun draft value => { draft with severity := some value })
       Severity.read,
     .slot "range" (·.range) (fun draft value => { draft with range := some value })
       (Json.optional Range.record.read)]
  start := {}
  closed := false
  mayBeShort := false
  finish draft := do
    return {
      message := ← Json.required "message" draft.message
      severity := ← Json.required "severity" draft.severity
      range := draft.range.getD none }

/-- The finding that a JSON text describes. -/
def ofJson (text : String) : Except Json.Problem LocalDiagnostic :=
  Json.decode record.read text

end LocalDiagnostic

namespace Diagnostic

/-- The fields of a diagnostic as far as they were read. -/
structure Draft where
  message : Option String := none
  severity : Option Severity := none
  range : Option Range := none
  source : Option String := none
  code : Option Code := none

/-- How a diagnostic is read. -/
def record : Json.Record Draft Diagnostic where
  name := "Diagnostic"
  fields :=
    [.slot "message" (·.message) (fun draft value => { draft with message := some value })
       Json.text,
     .slot "severity" (·.severity) (fun draft value => { draft with severity := some value })
       Severity.read,
     .slot "range" (·.range) (fun draft value => { draft with range := some value })
       Range.record.read,
     .slot "source" (·.source) (fun draft value => { draft with source := some value })
       Json.text,
     .slot "code" (·.code) (fun draft value => { draft with code := some value }) Code.read]
  start := {}
  closed := false
  mayBeShort := false
  finish draft := do
    return {
      message := ← Json.required "message" draft.message
      severity := ← Json.required "severity" draft.severity
      range := ← Json.required "range" draft.range
      source := ← Json.required "source" draft.source
      code := ← Json.required "code" draft.code }

/-- The diagnostic that a JSON text describes. -/
def ofJson (text : String) : Except Json.Problem Diagnostic :=
  Json.decode record.read text

end Diagnostic

end Heredoc
