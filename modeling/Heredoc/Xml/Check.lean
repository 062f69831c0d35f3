import Heredoc.Diagnostic
import Heredoc.Text.Blank
import Heredoc.Text.Offset
import Heredoc.Xml.Piece

/-!
# Checking XML

A text that is not blank has one root element, its tags match, and nothing but white space and
asides stands outside the root. The first problem becomes an error.
-/

namespace Heredoc.Xml

/-- A cause and the byte offset where it shows. -/
structure Problem where
  cause : Cause
  offset : Nat
deriving DecidableEq, Repr

/-- The elements that are open, innermost first, and the number of root elements so far. -/
structure Nesting where
  open_ : List String
  roots : Nat
deriving DecidableEq, Repr

namespace Nesting

/-- Before the first piece. -/
def start : Nesting := ⟨[], 0⟩

/-- Counts an element that begins here if it is outside all others; there may be one. -/
def countRoot (nesting : Nesting) (offset : Nat) : Except Problem Nesting :=
  if !nesting.open_.isEmpty then .ok nesting
  else if nesting.roots ≥ 1 then .error ⟨.secondRoot, offset⟩
  else .ok { nesting with roots := nesting.roots + 1 }

/-- Takes one piece. -/
def step (nesting : Nesting) (piece : Piece) : Except Problem Nesting :=
  match piece.kind with
  | .opening name =>
      (nesting.countRoot piece.offset).map fun counted =>
        { counted with open_ := name :: counted.open_ }
  | .emptyElement => nesting.countRoot piece.offset
  | .closing name =>
      match nesting.open_ with
      | [] => .error ⟨.unmatchedEnd name, piece.offset⟩
      | expected :: outer =>
          if name = expected then .ok { nesting with open_ := outer }
          else .error ⟨.mismatchedEnd expected name, piece.offset⟩
  | .text content =>
      if nesting.open_.isEmpty && !content.all Text.isAsciiBlank then
        .error ⟨.strayText, piece.offset + (content.takeWhile Text.isAsciiBlank).length⟩
      else .ok nesting
  | .cdata =>
      if nesting.open_.isEmpty then .error ⟨.strayCdata, piece.offset⟩ else .ok nesting
  | .aside | .finished => .ok nesting
  | .broken cause => .error ⟨cause, piece.offset⟩

/-- The problem at the end of a text. -/
def leftOver (nesting : Nesting) (text : List Char) : Option Problem :=
  match nesting.open_ with
  | name :: _ => some ⟨.unclosed name, Text.byteLength text⟩
  | [] =>
      if nesting.roots = 0 ∧ ¬ text.all Text.isBlank then
        some ⟨.noRoot, Text.byteLength text⟩
      else none

end Nesting

/-- The first problem of a text. -/
def firstProblem (text : List Char) : Option Problem :=
  match (pieces text).foldlM Nesting.step Nesting.start with
  | .error problem => some problem
  | .ok nesting => nesting.leftOver text

/-- The diagnostic of a problem. -/
def diagnosticOf (text : List Char) (problem : Problem) : LocalDiagnostic :=
  let at_ := Text.positionAt text problem.offset
  .error problem.cause.message (.singleChar at_.line at_.character)

/-- The first problem of a body. -/
def check (body : String) : Option LocalDiagnostic :=
  (firstProblem body.toList).map (diagnosticOf body.toList)

end Heredoc.Xml
