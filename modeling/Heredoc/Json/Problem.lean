import Heredoc.Text.Offset

/-!
# What can be wrong with a JSON text

A problem is a cause and the number of bytes that were counted in when it was found.
-/

namespace Heredoc.Json

/-- Why a text is refused. -/
inductive Cause where
  | endInValue
  | endInText
  | endInArray
  | endInObject
  | expectedWord
  | expectedValue
  | expectedColon
  | expectedCommaOrArrayEnd
  | expectedCommaOrObjectEnd
  | trailingComma
  | trailingCharacters
  | keyMustBeText
  | invalidNumber
  | numberOutOfRange
  | invalidEscape
  | controlCharacter
  | loneSurrogate
  | brokenSurrogatePair
  | tooDeep
  /-- The text is well formed, but its content is not what it should be. -/
  | content (message : String)
deriving DecidableEq, Repr

/-- The wording of a cause. -/
def Cause.message : Cause → String
  | .endInValue => "EOF while parsing a value"
  | .endInText => "EOF while parsing a string"
  | .endInArray => "EOF while parsing a list"
  | .endInObject => "EOF while parsing an object"
  | .expectedWord => "expected ident"
  | .expectedValue => "expected value"
  | .expectedColon => "expected `:`"
  | .expectedCommaOrArrayEnd => "expected `,` or `]`"
  | .expectedCommaOrObjectEnd => "expected `,` or `\x7d`"
  | .trailingComma => "trailing comma"
  | .trailingCharacters => "trailing characters"
  | .keyMustBeText => "key must be a string"
  | .invalidNumber => "invalid number"
  | .numberOutOfRange => "number out of range"
  | .invalidEscape => "invalid escape"
  | .controlCharacter => "control character (\\u0000-\\u001F) found while parsing a string"
  | .loneSurrogate => "lone leading surrogate in hex escape"
  | .brokenSurrogatePair => "unexpected end of hex escape"
  | .tooDeep => "recursion limit exceeded"
  | .content message => message

/-- Whether the cause lies in the content and not in the form of the text. -/
def Cause.isContent : Cause → Bool
  | .content _ => true
  | _ => false

/-- A cause and the number of bytes up to where it was found. -/
structure Problem where
  cause : Cause
  index : Nat
deriving DecidableEq, Repr

/-- The message of a problem with its line and column. -/
def Problem.message (problem : Problem) (text : List Char) : String :=
  let (line, column) := Text.lineColumn text problem.index
  problem.cause.message ++ " at line " ++ toString line ++ " column " ++ toString column

end Heredoc.Json
