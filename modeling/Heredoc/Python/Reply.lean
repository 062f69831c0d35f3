import Heredoc.Diagnostic
import Heredoc.Text.Blank
import Heredoc.Text.Integer
import Heredoc.Text.Search
import Heredoc.Text.Utf8

/-!
# Replies of the Python checker

The interpreter is asked to parse a body and answers with one line: `OK`, or
`ERROR:<line>:<column>:<message>` with places counted from one.
-/

namespace Heredoc.Python

/-- A reply, decoded. -/
inductive Reply where
  | ok
  | error (finding : LocalDiagnostic)
  | unrecognized
deriving DecidableEq, Repr

/-- The interpreter that is asked when no other is named. -/
def defaultInterpreter : String := "python3"

/-- The message of an error that comes without one. -/
def defaultMessage : String := "Invalid Python syntax"

/-- A place counted from one as a place counted from zero. What is no number of 64 bits counts as
zero, and the largest place is left out so that a range of one character still fits. -/
def readPlace (field : List Char) : UInt32 :=
  let n := (Text.readInteger? Int64.minValue.toInt Int64.maxValue.toInt (Text.trim field)).getD 0
  clamp32 (min (n - 1).toNat (UInt32.size - 2))

/-- Decodes a reply line. -/
def Reply.ofLine (line : String) : Reply :=
  let front := "ERROR:".toList
  if line = "OK" then .ok
  else if front.isPrefixOf line.toList then
    let (lineField, afterLine) := Text.cutAt ':' (line.toList.drop front.length)
    let (columnField, afterColumn) := Text.cutAt ':' (afterLine.getD [])
    let message := match afterColumn with
      | some (c :: rest) => String.ofList (c :: rest)
      | _ => defaultMessage
    .error (.error message (.singleChar (readPlace lineField) (readPlace columnField)))
  else .unrecognized

/-- How a run of the interpreter ended: its exit status and what it printed. -/
structure Run where
  status : Nat
  output : List UInt8
deriving DecidableEq, Repr

/-- What a run says about the body; a run that failed says nothing. -/
def Run.findings (run : Run) : List LocalDiagnostic :=
  if run.status ≠ 0 then []
  else
    match Reply.ofLine (String.ofList (Text.trim (Text.decodeLossy run.output).toList)) with
    | .error finding => [finding]
    | .ok | .unrecognized => []

end Heredoc.Python
