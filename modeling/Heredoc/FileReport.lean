import Heredoc.Diagnostic
import Heredoc.Json.Print
import Heredoc.Region

/-!
# Reports on files

Diagnostics and regions as lines of text, with places counted from one, and the diagnostics of a
file as JSON.
-/

namespace Heredoc

/-- A diagnostic as a line. -/
def diagnosticLine (path : String) (diagnostic : Diagnostic) : String :=
  let start := diagnostic.range.start
  path ++ ":" ++ toString (start.line.toNat + 1) ++ ":" ++ toString (start.character.toNat + 1) ++
    ": " ++ diagnostic.severity.label ++ ": " ++ diagnostic.text

/-- A region as a line: its marker and terminator lines, its tag and the key of that. -/
def regionLine (path : String) (region : Region) (key : String) : String :=
  path ++ ":" ++ toString (region.markerLine + 1) ++ "-" ++
    toString (region.terminatorLine + 1) ++ " " ++ region.tag ++ " (" ++ key ++ ")"

/-- A position as JSON. -/
def Position.toJson (position : Position) : Json.Value :=
  .object [("line", .number position.line.toNat), ("character", .number position.character.toNat)]

/-- A range as JSON. -/
def Range.toJson (range : Range) : Json.Value :=
  .object [("start", range.start.toJson), ("end", range.stop.toJson)]

/-- A diagnostic as JSON. -/
def Diagnostic.toJson (diagnostic : Diagnostic) : Json.Value :=
  .object
    [("message", .text diagnostic.message),
     ("severity", .text diagnostic.severity.name),
     ("range", diagnostic.range.toJson),
     ("source", .text diagnostic.source),
     ("code", .text diagnostic.code.name)]

/-- A finding as JSON. -/
def LocalDiagnostic.toJson (finding : LocalDiagnostic) : Json.Value :=
  .object
    [("message", .text finding.message),
     ("severity", .text finding.severity.name),
     ("range", (finding.range.map Range.toJson).getD .null)]

/-- The diagnostics of one file. -/
structure FileReport where
  path : String
  diagnostics : List Diagnostic
deriving DecidableEq, Repr

namespace FileReport

/-- Whether an error is among them. -/
def hasErrors (report : FileReport) : Bool :=
  report.diagnostics.any Diagnostic.isError

/-- The diagnostics as lines. -/
def lines (report : FileReport) : List String :=
  report.diagnostics.map (diagnosticLine report.path)

/-- The report as JSON. -/
def toJson (report : FileReport) : Json.Value :=
  .object
    [("path", .text report.path),
     ("diagnostics", .array (report.diagnostics.map Diagnostic.toJson))]

end FileReport

end Heredoc
