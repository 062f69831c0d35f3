import Heredoc.Diagnostic
import Heredoc.Json.Token
import Heredoc.Text.Blank

/-!
# Checking JSON

A stack machine runs over the tokens of a text. It knows for each open object the keys it has
seen, refuses a key that comes again, and refuses arrays and objects nested too deeply. The first
problem becomes a diagnostic: a warning for a repeated key, an error for anything else.
-/

namespace Heredoc.Json

/-- An array or object that is open; an object with its keys so far. -/
inductive Frame where
  | array
  | object (seen : List String)
deriving DecidableEq, Repr

/-- What may come next. -/
inductive Expecting where
  | value
  | itemOrClose
  | item
  | keyOrClose
  | key
  | colon
  | separator
  /-- A key came again; only the offset of the next token is awaited. -/
  | afterRepeatedKey (key : String)
deriving DecidableEq, Repr

/-- The open frames, innermost first, and what may come next. -/
structure Nesting where
  frames : List Frame
  expecting : Expecting
deriving DecidableEq, Repr

/-- Arrays and objects may be nested this deep. -/
def depthLimit : Nat := 127

namespace Nesting

/-- Before the first token. -/
def start : Nesting := ⟨[], .value⟩

/-- A value has just ended. -/
def afterValue (frames : List Frame) : Nesting := ⟨frames, .separator⟩

/-- Opens an array or object unless it is too deep. -/
def enter (frames : List Frame) (frame : Frame) (next : Expecting) (token : Token) :
    Except Problem Nesting :=
  if frames.length < depthLimit then .ok ⟨frame :: frames, next⟩
  else .error (token.unexpected .tooDeep)

/-- Takes a token where a value is due. -/
def takeValue (frames : List Frame) (token : Token) : Except Problem Nesting :=
  match token.kind with
  | .null | .bool _ | .text _ => .ok (afterValue frames)
  | .number number => number.value.map fun _ => afterValue frames
  | .openArray => enter frames .array .itemOrClose token
  | .openObject => enter frames (.object []) .keyOrClose token
  | .brokenText problem _ | .broken problem _ => .error problem
  | .finished => .error (token.unexpected .endInValue)
  | _ => .error (token.unexpected .expectedValue)

/-- Takes a token where a key is due. -/
def takeKey (frames : List Frame) (token : Token) : Except Problem Nesting :=
  match token.kind, frames with
  | .text key, .object seen :: outer =>
      if key ∈ seen then .ok ⟨frames, .afterRepeatedKey key⟩
      else .ok ⟨.object (key :: seen) :: outer, .colon⟩
  | .brokenText problem _, _ => .error problem
  | _, _ => .error (token.unexpected .keyMustBeText)

/-- Takes a token after a value. -/
def takeSeparator (frames : List Frame) (token : Token) : Except Problem Nesting :=
  match frames, token.kind with
  | [], .finished => .ok ⟨[], .separator⟩
  | [], _ => .error (token.unexpected .trailingCharacters)
  | .array :: _, .comma => .ok ⟨frames, .item⟩
  | .array :: outer, .closeArray => .ok (afterValue outer)
  | .array :: _, .finished => .error (token.unexpected .endInArray)
  | .array :: _, _ => .error (token.unexpected .expectedCommaOrArrayEnd)
  | .object _ :: _, .comma => .ok ⟨frames, .key⟩
  | .object _ :: outer, .closeObject => .ok (afterValue outer)
  | .object _ :: _, .finished => .error (token.unexpected .endInObject)
  | .object _ :: _, _ => .error (token.unexpected .expectedCommaOrObjectEnd)

/-- The offset at which a repeated key is noticed: past the next token if that closes the object,
else before it. -/
def noticeIndex (token : Token) : Nat :=
  match token.kind with
  | .closeObject => token.stop
  | _ => token.start

/-- The message for a key that comes again. -/
def repeatedKeyMessage (key : String) : String :=
  "duplicate object key `" ++ key ++ "`"

/-- Takes one token. -/
def step (nesting : Nesting) (token : Token) : Except Problem Nesting :=
  match nesting.expecting with
  | .value => takeValue nesting.frames token
  | .itemOrClose =>
      match token.kind with
      | .closeArray => .ok (afterValue nesting.frames.tail)
      | .finished => .error (token.unexpected .endInArray)
      | _ => takeValue nesting.frames token
  | .item =>
      match token.kind with
      | .closeArray => .error (token.unexpected .trailingComma)
      | _ => takeValue nesting.frames token
  | .keyOrClose =>
      match token.kind with
      | .closeObject => .ok (afterValue nesting.frames.tail)
      | .finished => .error (token.unexpected .endInObject)
      | _ => takeKey nesting.frames token
  | .key =>
      match token.kind with
      | .closeObject => .error (token.unexpected .trailingComma)
      | .finished => .error (token.unexpected .endInValue)
      | _ => takeKey nesting.frames token
  | .colon =>
      match token.kind with
      | .colon => .ok ⟨nesting.frames, .value⟩
      | .finished => .error (token.unexpected .endInObject)
      | _ => .error (token.unexpected .expectedColon)
  | .separator => takeSeparator nesting.frames token
  | .afterRepeatedKey key =>
      .error ⟨.content (repeatedKeyMessage key), noticeIndex token⟩

end Nesting

/-- The first problem of a text. -/
def firstProblem (text : List Char) : Option Problem :=
  match (tokens text).foldlM Nesting.step Nesting.start with
  | .ok _ => none
  | .error problem => some problem

/-! ## From problem to diagnostic -/

/-- The offset a problem points at: the byte before the place where it was found, kept within its
line. -/
def reportedOffset (text : List Char) (problem : Problem) : Nat :=
  let (line, column) := Text.lineColumn text problem.index
  Text.offsetOf text (line - 1) (column - 1)

/-- Moves from just past a key back to its opening quote. -/
def toOpeningQuote (text : List Char) (offset : Nat) : Nat :=
  let quote := some '"'
  let offset :=
    if Text.charAt? offset text ≠ quote ∧ offset > 0 ∧ Text.charAt? (offset - 1) text = quote
    then offset - 1 else offset
  if Text.charAt? offset text = quote then
    match Text.beforeLast? '"' (Text.fitting offset text) with
    | some before => Text.byteLength before
    | none => offset
  else offset

/-- Moves from a closing bracket back to a comma that stands before it, white space apart. -/
def toTrailingComma (text : List Char) (offset : Nat) : Nat :=
  let at_ := Text.charAt? offset text
  if at_ = some '\x7d' ∨ at_ = some ']' then
    let before := Text.trimEnd (Text.fitting offset text)
    if before.getLast? = some ',' then Text.byteLength before - 1 else offset
  else offset

/-- The number of spaces, tabs and carriage returns from an offset on. -/
def blanksAt (text : List Char) (offset : Nat) : Nat :=
  ((text.drop (Text.fitting offset text).length).takeWhile fun c =>
    c == ' ' || c == '\t' || c == '\r').length

/-- The offset that a diagnostic marks. -/
def markedOffset (text : List Char) (problem : Problem) : Nat :=
  let offset := reportedOffset text problem
  let offset :=
    if problem.cause.isContent then toOpeningQuote text offset else toTrailingComma text offset
  match Text.charAt? offset text with
  | some _ => offset + blanksAt text offset
  | none => offset

/-- The diagnostic of a problem. -/
def diagnosticOf (text : List Char) (problem : Problem) : LocalDiagnostic :=
  let at_ := Text.positionAt text (markedOffset text problem)
  { message := Text.stripLocation (problem.message text)
    severity := if problem.cause.isContent then .warning else .error
    range := some (.singleChar at_.line at_.character) }

/-- The first problem of a body; a body of white space has none. -/
def check (body : String) : Option LocalDiagnostic :=
  let text := body.toList
  if text.all Text.isBlank then none
  else (firstProblem text).map (diagnosticOf text)

end Heredoc.Json
