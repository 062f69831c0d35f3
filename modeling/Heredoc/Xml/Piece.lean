import Heredoc.Text.Search
import Heredoc.Text.Utf8

/-!
# Pieces of XML

A text is cut into markup and the text between it, each piece with its byte offset. The list ends
with the end of the text, or with markup that breaks off.
-/

namespace Heredoc.Xml

/-- Why a text is refused. -/
inductive Cause where
  | unknownMarkup
  | openInstruction
  | openComment
  | openDoctype
  | openCdata
  | openTag
  | namelessDoctype
  | mismatchedEnd (expected found : String)
  | unmatchedEnd (found : String)
  | secondRoot
  | strayText
  | strayCdata
  | unclosed (name : String)
  | noRoot
deriving DecidableEq, Repr

/-- The wording of a cause. -/
def Cause.message : Cause → String
  | .unknownMarkup => "syntax error: unknown or missed symbol in markup"
  | .openInstruction =>
      "syntax error: processing instruction or xml declaration not closed: `?>` not found before end of input"
  | .openComment => "syntax error: comment not closed: `-->` not found before end of input"
  | .openDoctype => "syntax error: DOCTYPE not closed: `>` not found before end of input"
  | .openCdata => "syntax error: CDATA not closed: `]]>` not found before end of input"
  | .openTag => "syntax error: tag not closed: `>` not found before end of input"
  | .namelessDoctype =>
      "ill-formed document: `<!DOCTYPE>` declaration does not contain a name of a document type"
  | .mismatchedEnd expected found =>
      "ill-formed document: expected `</" ++ expected ++ ">`, but `</" ++ found ++
        ">` was found"
  | .unmatchedEnd found =>
      "ill-formed document: close tag `</" ++ found ++ ">` does not match any open tag"
  | .secondRoot => "multiple root elements"
  | .strayText => "text outside the root element"
  | .strayCdata => "CDATA outside the root element"
  | .unclosed name => "unclosed tag <" ++ name ++ ">"
  | .noRoot => "no root element"

/-- What a piece is. -/
inductive Kind where
  | opening (name : String)
  | emptyElement
  | closing (name : String)
  | text (content : List Char)
  | cdata
  /-- A comment, an instruction or a document type. -/
  | aside
  /-- Markup that breaks off. -/
  | broken (cause : Cause)
  | finished
deriving DecidableEq, Repr

/-- A piece and the byte offset where it starts; one that breaks off is placed where that
shows. -/
structure Piece where
  kind : Kind
  offset : Nat
deriving DecidableEq, Repr

/-- Space, tab, carriage return or line feed. -/
def isSpace (c : Char) : Bool :=
  c == ' ' || c == '\t' || c == '\r' || c == '\n'

/-! ## Where markup ends -/

/-- The number of characters up to and including the first occurrence of a text. -/
def through? (needle cs : List Char) : Option Nat :=
  (Text.before? needle cs).map fun before => before.length + needle.length

/-- The number of characters up to and including the `>` that is outside quotes. -/
def throughTagEnd? (quote : Option Char) : List Char → Option Nat
  | [] => none
  | c :: rest =>
      let next := match quote with
        | some open_ => if c = open_ then none else quote
        | none => if c = '\'' ∨ c = '"' then some c else none
      if quote.isNone ∧ c = '>' then some 1 else (throughTagEnd? next rest).map (· + 1)

/-- The number of characters up to and including the `>` that closes a document type, in which
`depth` angle brackets are open. -/
def throughDoctypeEnd? (depth : Nat) : List Char → Option Nat
  | [] => none
  | c :: rest =>
      if c = '<' then (throughDoctypeEnd? (depth + 1) rest).map (· + 1)
      else if c ≠ '>' then (throughDoctypeEnd? depth rest).map (· + 1)
      else match depth with
        | 0 => some 1
        | depth + 1 => (throughDoctypeEnd? depth rest).map (· + 1)

/-! ## Markup -/

/-- A piece of markup and how many characters after its `<` belong to it, or a cause and how many
bytes after the `<` it shows. -/
abbrev Markup := Except (Cause × Nat) (Kind × Nat)

/-- An end tag without trailing space; a name of spaces only is kept. -/
def endName (content : List Char) : List Char :=
  let kept := (content.reverse.dropWhile isSpace).reverse
  if kept.isEmpty then content else kept

/-- Reads an element's tag. -/
def readTag (cs : List Char) : Markup :=
  match throughTagEnd? none cs with
  | none => .error (.openTag, 0)
  | some count =>
      let content := cs.take (count - 1)
      let kind : Kind := match content with
        | '/' :: name => .closing (String.ofList (endName name))
        | _ =>
            if content.getLast? = some '/' then .emptyElement
            else .opening (String.ofList (content.takeWhile (!isSpace ·)))
      .ok (kind, count)

/-- Reads a document type. -/
def readDoctype (cs : List Char) : Markup :=
  match throughDoctypeEnd? 0 cs with
  | none => .error (.openDoctype, 0)
  | some count =>
      let content := cs.take (count - 1)
      if (content.take 8).map Char.toUpper ≠ "!DOCTYPE".toList then .error (.openDoctype, 0)
      else if (content.drop 8).all isSpace then
        .error (.namelessDoctype, 1 + Text.byteLength content)
      else .ok (.aside, count)

/-- Reads markup that must begin with a text and runs up to another. -/
def readBetween (opener closer : String) (kind : Kind) (cause : Cause) (cs : List Char) :
    Markup :=
  let opener := opener.toList
  if opener.isPrefixOf cs then
    match through? closer.toList (cs.drop opener.length) with
    | some count => .ok (kind, opener.length + count)
    | none => .error (cause, 0)
  else .error (cause, 0)

/-- Reads the markup that follows a `<`. -/
def readMarkup (cs : List Char) : Markup :=
  match cs with
  | '!' :: '[' :: _ => readBetween "![CDATA[" "]]>" .cdata .openCdata cs
  | '!' :: '-' :: _ => readBetween "!--" "-->" .aside .openComment cs
  | '!' :: 'D' :: _ => readDoctype cs
  | '!' :: 'd' :: _ => readDoctype cs
  | '!' :: _ => .error (.unknownMarkup, 0)
  | '?' :: '>' :: _ => .error (.openInstruction, 0)
  | '?' :: _ => readBetween "?" "?>" .aside .openInstruction cs
  | _ => readTag cs

/-- The pieces of a text that starts at a byte offset. -/
def piecesFrom (offset : Nat) : List Char → List Piece
  | [] => [⟨.finished, offset⟩]
  | c :: rest =>
      if c = '<' then
        match readMarkup rest with
        | .error (cause, shift) => [⟨.broken cause, offset + shift⟩]
        | .ok (kind, count) =>
            ⟨kind, offset⟩ ::
              piecesFrom (offset + 1 + Text.byteLength (rest.take count)) (rest.drop count)
      else
        let more := rest.takeWhile (· ≠ '<')
        ⟨.text (c :: more), offset⟩ ::
          piecesFrom (offset + Text.byteLength (c :: more)) (rest.drop more.length)
termination_by cs => cs.length
decreasing_by
  all_goals
    simp only [List.length_drop, List.length_cons]
    omega

/-- The pieces of a text; a byte order mark at its start is skipped and not counted. -/
def pieces (text : List Char) : List Piece :=
  match text with
  | '\uFEFF' :: rest => piecesFrom 0 rest
  | _ => piecesFrom 0 text

end Heredoc.Xml
