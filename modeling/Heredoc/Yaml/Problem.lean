/-!
# What can be wrong with a YAML stream

Places in a stream, the causes for which a stream is refused, and the wording of each.
-/

namespace Heredoc.Yaml

/-- A place in a stream, counted from zero. -/
structure Mark where
  /-- The bytes before the place. -/
  index : Nat
  line : Nat
  /-- The characters before the place in its line. -/
  column : Nat
deriving DecidableEq, Repr, Inhabited

/-- Whether the mark is in the first column of the first line. -/
def Mark.isOrigin (mark : Mark) : Bool :=
  mark.line == 0 && mark.column == 0

/-- The text of a mark, counted from one. -/
def Mark.text (mark : Mark) : String :=
  if mark.isOrigin then "position " ++ toString mark.index
  else "line " ++ toString (mark.line + 1) ++ " column " ++ toString (mark.column + 1)

/-- Why a stream is refused. -/
inductive Cause where
  | controlCharacter
  -- tokens
  | cannotStartToken
  | missingColon
  | entryNotAllowed
  | keyNotAllowed
  | valueNotAllowed
  | missingDirectiveName
  | nonAlphabeticDirective
  | unknownDirective
  | missingLineEnd
  | missingVersionPoint
  | longVersion
  | missingVersion
  | missingBlank
  | missingBlankOrBreak
  | missingName
  | missingTagEnd
  | missingTagMark
  | missingTagUri
  | missingOctet
  | wrongLeadingOctet
  | wrongTrailingOctet
  | zeroIndentation
  | tabInIndentation
  | unexpectedIndicator
  | unexpectedEnd
  | unknownEscape
  | missingHexDigit
  | invalidCodePoint
  | unexpectedColon
  | tabBeforeText
  -- nodes
  | missingDocumentStart
  | repeatedVersion
  | unsupportedVersion
  | repeatedTagDirective
  | undefinedHandle
  | missingNode
  | missingDash
  | missingKey
  | missingSequenceSeparator
  | missingMappingSeparator
  -- documents
  | unknownAnchor
deriving DecidableEq, Repr

/-- The wording of a cause. -/
def Cause.message : Cause → String
  | .controlCharacter => "control characters are not allowed"
  | .cannotStartToken => "found character that cannot start any token"
  | .missingColon => "could not find expected ':'"
  | .entryNotAllowed => "block sequence entries are not allowed in this context"
  | .keyNotAllowed => "mapping keys are not allowed in this context"
  | .valueNotAllowed => "mapping values are not allowed in this context"
  | .missingDirectiveName => "could not find expected directive name"
  | .nonAlphabeticDirective => "found unexpected non-alphabetical character"
  | .unknownDirective => "found unknown directive name"
  | .missingLineEnd => "did not find expected comment or line break"
  | .missingVersionPoint => "did not find expected digit or '.' character"
  | .longVersion => "found extremely long version number"
  | .missingVersion => "did not find expected version number"
  | .missingBlank => "did not find expected whitespace"
  | .missingBlankOrBreak => "did not find expected whitespace or line break"
  | .missingName => "did not find expected alphabetic or numeric character"
  | .missingTagEnd => "did not find the expected '>'"
  | .missingTagMark => "did not find expected '!'"
  | .missingTagUri => "did not find expected tag URI"
  | .missingOctet => "did not find URI escaped octet"
  | .wrongLeadingOctet => "found an incorrect leading UTF-8 octet"
  | .wrongTrailingOctet => "found an incorrect trailing UTF-8 octet"
  | .zeroIndentation => "found an indentation indicator equal to 0"
  | .tabInIndentation => "found a tab character where an indentation space is expected"
  | .unexpectedIndicator => "found unexpected document indicator"
  | .unexpectedEnd => "found unexpected end of stream"
  | .unknownEscape => "found unknown escape character"
  | .missingHexDigit => "did not find expected hexadecimal number"
  | .invalidCodePoint => "found invalid Unicode character escape code"
  | .unexpectedColon => "found unexpected ':'"
  | .tabBeforeText => "found a tab character that violates indentation"
  | .missingDocumentStart => "did not find expected <document start>"
  | .repeatedVersion => "found duplicate %YAML directive"
  | .unsupportedVersion => "found incompatible YAML document"
  | .repeatedTagDirective => "found duplicate %TAG directive"
  | .undefinedHandle => "found undefined tag handle"
  | .missingNode => "did not find expected node content"
  | .missingDash => "did not find expected '-' indicator"
  | .missingKey => "did not find expected key"
  | .missingSequenceSeparator => "did not find expected ',' or ']'"
  | .missingMappingSeparator => "did not find expected ',' or '\x7d'"
  | .unknownAnchor => "unknown anchor"

/-- What was being read when a cause was found. -/
inductive Activity where
  | nextToken
  | simpleKey
  | directive
  | versionDirective
  | tagDirective
  | tagDirectiveHandle
  | tagDirectiveHandleEnd
  | tagDirectiveUri
  | anchor
  | reference
  | tag
  | tagUri
  | blockScalar
  | quotedScalar
  | quotedScalarEscape
  | plainScalar
  | node
  | blockNode
  | flowNode
  | blockCollection
  | blockMapping
  | flowSequence
  | flowMapping
deriving DecidableEq, Repr

/-- The wording of an activity. -/
def Activity.message : Activity → String
  | .nextToken => "while scanning for the next token"
  | .simpleKey => "while scanning a simple key"
  | .directive => "while scanning a directive"
  | .versionDirective => "while scanning a %YAML directive"
  | .tagDirective => "while scanning a %TAG directive"
  | .tagDirectiveHandle => "while scanning a tag directive"
  | .tagDirectiveHandleEnd => "while parsing a tag directive"
  | .tagDirectiveUri => "while parsing a %TAG directive"
  | .anchor => "while scanning an anchor"
  | .reference => "while scanning an alias"
  | .tag => "while scanning a tag"
  | .tagUri => "while parsing a tag"
  | .blockScalar => "while scanning a block scalar"
  | .quotedScalar => "while scanning a quoted scalar"
  | .quotedScalarEscape => "while parsing a quoted scalar"
  | .plainScalar => "while scanning a plain scalar"
  | .node => "while parsing a node"
  | .blockNode => "while parsing a block node"
  | .flowNode => "while parsing a flow node"
  | .blockCollection => "while parsing a block collection"
  | .blockMapping => "while parsing a block mapping"
  | .flowSequence => "while parsing a flow sequence"
  | .flowMapping => "while parsing a flow mapping"

/-- A cause, where it was found, and what was being read from where on. -/
structure Problem where
  cause : Cause
  mark : Mark
  /-- A byte offset, for what is found before places are counted. -/
  offset : Nat := 0
  context : Option (Activity × Mark) := none
deriving Repr

/-- The full message of a problem. -/
def Problem.message (problem : Problem) : String :=
  let place :=
    if !problem.mark.isOrigin then " at " ++ problem.mark.text
    else if problem.offset ≠ 0 then " at position " ++ toString problem.offset
    else ""
  let context := match problem.context with
    | none => ""
    | some (activity, mark) =>
        ", " ++ activity.message ++
          if !mark.isOrigin && (mark.line, mark.column) ≠ (problem.mark.line, problem.mark.column)
          then " at " ++ mark.text else ""
  problem.cause.message ++ place ++ context

/-- A problem found at a mark while something that began earlier was read. -/
def Problem.during (activity : Activity) (began : Mark) (cause : Cause) (mark : Mark) : Problem :=
  { cause, mark, context := some (activity, began) }

end Heredoc.Yaml
