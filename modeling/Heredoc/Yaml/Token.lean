import Heredoc.Yaml.NodeTag
import Heredoc.Yaml.Scalar

/-!
# YAML tokens

The tokens of a stream, with the block structure that indentation implies. A token is released
only when no later `:` can make it the start of a key, so that the marker of that key can still
be put in front of it.
-/

namespace Heredoc.Yaml

/-- What a token is. -/
inductive TokenKind where
  | streamStart
  | streamEnd
  | version (major minor : Nat)
  | tagDirective (handle : String) (front : Octets)
  | documentStart
  | documentEnd
  | blockSequenceStart
  | blockMappingStart
  | blockEnd
  | flowSequenceStart
  | flowSequenceEnd
  | flowMappingStart
  | flowMappingEnd
  | blockEntry
  | flowEntry
  | key
  | value
  | reference (name : String)
  | anchor (name : String)
  | tag (handle : String) (suffix : Octets)
  | scalar (text : String) (style : ScalarStyle)
deriving DecidableEq, Repr

/-- A token and its ends. -/
structure Token where
  kind : TokenKind
  start : Mark
  stop : Mark
deriving Repr

/-- A place where a key may have begun without a `?`. -/
structure SimpleKey where
  /-- Whether only a key can stand there. -/
  required : Bool
  /-- The number of the token that begins it. -/
  token : Nat
  mark : Mark
deriving Repr

/-- A scan of a stream. -/
structure Scanner where
  cursor : Cursor
  /-- Whether the end of the stream was reached. -/
  ended : Bool
  /-- The column of the innermost block collection, or -1. -/
  indent : Int
  /-- The columns of the block collections around it. -/
  outerIndents : List Int
  /-- The open key of each flow collection, innermost first, and of the block level. -/
  simpleKeys : List (Option SimpleKey)
  /-- Whether a key may begin here without a `?`. -/
  keyAllowed : Bool
  /-- The number of tokens released. -/
  released : Nat
  /-- The tokens not yet released. -/
  queue : List Token
deriving Repr

/-- A key ends within so many bytes. -/
def simpleKeyLength : Nat := 1024

/-- A step of a scan. -/
abbrev ScanStep := Except Problem Scanner

namespace Scanner

/-- The scan before the first token. -/
def start (text : List Char) : Scanner where
  cursor := .start text
  ended := false
  indent := -1
  outerIndents := []
  simpleKeys := [none]
  keyAllowed := true
  released := 0
  queue := [⟨.streamStart, ⟨0, 0, 0⟩, ⟨0, 0, 0⟩⟩]

/-- The place where the scan is. -/
def mark (scanner : Scanner) : Mark := scanner.cursor.mark

/-- Whether the scan is inside a flow collection. -/
def inFlow (scanner : Scanner) : Bool := !scanner.simpleKeys.tail.isEmpty

/-- Adds a token at the end. -/
def push (scanner : Scanner) (kind : TokenKind) (start stop : Mark) : Scanner :=
  { scanner with queue := scanner.queue ++ [⟨kind, start, stop⟩] }

/-- Adds a token in front of the token with this number. -/
def insert (scanner : Scanner) (number : Nat) (kind : TokenKind) (mark : Mark) : Scanner :=
  let at_ := number - scanner.released
  { scanner with
    queue := scanner.queue.take at_ ++ ⟨kind, mark, mark⟩ :: scanner.queue.drop at_ }

/-- Steps over an indicator and adds its token. -/
def pushIndicator (scanner : Scanner) (kind : TokenKind) (length : Nat) : Scanner :=
  let next := scanner.cursor.skip length
  { scanner.push kind scanner.mark next.mark with cursor := next }

/-- A problem at the place of the scan. -/
def fail {α : Type} (scanner : Scanner) (cause : Cause) : Except Problem α :=
  .error { cause, mark := scanner.mark }

/-! ## Keys without an indicator -/

/-- The problem that a key had to come and no `:` came. -/
def missingColon (scanner : Scanner) (key : SimpleKey) : Problem :=
  .during .simpleKey key.mark .missingColon scanner.mark

/-- Whether a key began on an earlier line or is too long. -/
def isStale (scanner : Scanner) (key : SimpleKey) : Bool :=
  key.mark.line < scanner.mark.line || key.mark.index + simpleKeyLength < scanner.mark.index

/-- Gives up stale keys; the outermost one that had to be a key is a problem. -/
def dropStaleKeys (scanner : Scanner) : ScanStep :=
  if scanner.simpleKeys.any (·.any scanner.isStale) then
    match scanner.simpleKeys.reverse.findSome? (·.filter fun key =>
        scanner.isStale key && key.required) with
    | some key => .error (scanner.missingColon key)
    | none =>
        .ok { scanner with
          simpleKeys := scanner.simpleKeys.map (·.filter fun key => !scanner.isStale key) }
  else .ok scanner

/-- Gives up the innermost key. -/
def dropKey (scanner : Scanner) : ScanStep :=
  match scanner.simpleKeys with
  | some key :: outer =>
      if key.required then .error (scanner.missingColon key)
      else .ok { scanner with simpleKeys := none :: outer }
  | _ => .ok scanner

/-- Notes that a key may begin with the next token. -/
def saveKey (scanner : Scanner) : ScanStep := do
  if scanner.keyAllowed then
    let key : SimpleKey :=
      { required := !scanner.inFlow && scanner.indent == scanner.mark.column
        token := scanner.released + scanner.queue.length
        mark := scanner.mark }
    let scanner ← scanner.dropKey
    return { scanner with simpleKeys := some key :: scanner.simpleKeys.tail }
  else return scanner

/-! ## Indentation -/

/-- Opens a block collection if the column is deeper; its token goes in front of the token with
the given number, or to the end. -/
def rollIndent (scanner : Scanner) (column : Nat) (number : Option Nat) (kind : TokenKind)
    (mark : Mark) : Scanner :=
  if !scanner.inFlow && scanner.indent < column then
    let scanner := { scanner with
      indent := column
      outerIndents := scanner.indent :: scanner.outerIndents }
    match number with
    | some number => scanner.insert number kind mark
    | none => scanner.push kind mark mark
  else scanner

/-- The columns that stay open at a column: the innermost one first, and how many are closed. -/
def closeIndents (column : Int) : Int → List Int → Int × List Int × Nat
  | indent, [] => (indent, [], 0)
  | indent, outer :: rest =>
      if indent > column then
        let (indent, rest, closed) := closeIndents column outer rest
        (indent, rest, closed + 1)
      else (indent, outer :: rest, 0)

/-- Closes the block collections that are deeper than the column. -/
def unrollIndent (scanner : Scanner) (column : Int) : Scanner :=
  if scanner.inFlow then scanner
  else
    let (indent, outerIndents, closed) :=
      closeIndents column scanner.indent scanner.outerIndents
    { scanner with
      indent
      outerIndents
      queue := scanner.queue ++
        List.replicate closed ⟨.blockEnd, scanner.mark, scanner.mark⟩ }

/-! ## Between tokens -/

/-- Steps over a byte order mark in the first column. -/
def skipMark (cursor : Cursor) : Cursor :=
  if cursor.mark.column == 0 && cursor.sees '\uFEFF' then cursor.skip 1 else cursor

/-- Steps over a comment. -/
def skipComment (cursor : Cursor) : Cursor :=
  if cursor.sees '#' then cursor.skipWhile (!isBreak ·) else cursor

/-- Steps over blanks and a comment in one line. -/
def skipLine (tabs : Bool) (cursor : Cursor) : Cursor :=
  skipComment ((skipMark cursor).skipWhile fun c => c == ' ' || (tabs && c == '\t'))

theorem length_skipMark_le (cursor : Cursor) :
    (skipMark cursor).rest.length ≤ cursor.rest.length := by
  unfold skipMark
  split
  · exact Cursor.length_skip_le ..
  · exact Nat.le_refl _

theorem length_skipComment_le (cursor : Cursor) :
    (skipComment cursor).rest.length ≤ cursor.rest.length := by
  unfold skipComment
  split
  · exact Cursor.length_skipWhile_le ..
  · exact Nat.le_refl _

theorem length_skipLine_le (tabs : Bool) (cursor : Cursor) :
    (skipLine tabs cursor).rest.length ≤ cursor.rest.length :=
  calc (skipLine tabs cursor).rest.length
      ≤ _ := length_skipComment_le _
    _ ≤ (skipMark cursor).rest.length := Cursor.length_skipWhile_le ..
    _ ≤ cursor.rest.length := length_skipMark_le cursor

/-- Steps over blanks, comments and line breaks; gives what is left and whether a key may begin
there. Tabs count as blanks only where no key may begin. -/
def skipToToken (inFlow keyAllowed : Bool) (cursor : Cursor) : Cursor × Bool :=
  let next := skipLine (inFlow || !keyAllowed) cursor
  if _more : next.seesAny isBreak = true then
    skipToToken inFlow (keyAllowed || !inFlow) next.takeBreak.2
  else (next, keyAllowed)
termination_by cursor.rest.length
decreasing_by
  exact Nat.lt_of_lt_of_le (Cursor.length_takeBreak_lt _ _more) (length_skipLine_le ..)

/-! ## Directives -/

/-- The digits of a version number may be so many. -/
def versionLength : Nat := 9

/-- Reads a version number. -/
def readVersionNumber (began : Mark) (cursor : Cursor) : Except Problem (Nat × Cursor) :=
  let digits := cursor.rest.takeWhile Char.isDigit
  if digits.length > versionLength then
    .error (.during .versionDirective began .longVersion (cursor.skip versionLength).mark)
  else if digits.isEmpty then
    .error (.during .versionDirective began .missingVersion cursor.mark)
  else
    .ok (digits.foldl (fun n c => n * 10 + (c.toNat - '0'.toNat)) 0,
      cursor.skip digits.length)

/-- Reads the value of a version directive. -/
def readVersion (began : Mark) (cursor : Cursor) : Except Problem (TokenKind × Cursor) := do
  let (major, cursor) ← readVersionNumber began (cursor.skipWhile isBlank)
  if !cursor.sees '.' then
    throw (.during .versionDirective began .missingVersionPoint cursor.mark)
  let (minor, cursor) ← readVersionNumber began (cursor.skip 1)
  return (.version major minor, cursor)

/-- Reads a tag handle: `!`, or `!name!`, or the front of `!suffix`. -/
def readHandle (inDirective : Bool) (began : Mark) (cursor : Cursor) :
    Except Problem (List Char × Cursor) :=
  if !cursor.sees '!' then
    .error (.during (if inDirective then .tagDirectiveHandle else .tag) began .missingTagMark
      cursor.mark)
  else
    let (name, cursor) := (cursor.skip 1).takeWhile isNameChar
    if cursor.sees '!' then .ok ('!' :: name ++ ['!'], cursor.skip 1)
    else if inDirective && !name.isEmpty then
      .error (.during .tagDirectiveHandleEnd began .missingTagMark cursor.mark)
    else .ok ('!' :: name, cursor)

/-- Characters of a tag URI; the last three only where no flow collection can be meant. -/
def isUriChar (verbatim : Bool) (c : Char) : Bool :=
  isNameChar c || ";/?:@&=+$.%!~*'()".toList.contains c ||
    (verbatim && ",[]".toList.contains c)

/-- The number of bytes of a character that starts with this byte. -/
def octetWidth (octet : Nat) : Nat :=
  if octet < 0x80 then 1
  else if octet / 0x20 == 6 then 2
  else if octet / 0x10 == 14 then 3
  else if octet / 0x08 == 30 then 4
  else 0

/-- Reads an escaped octet. -/
def readOctet (activity : Activity) (began : Mark) (cursor : Cursor) : Except Problem Nat :=
  match cursor.rest with
  | '%' :: high :: low :: _ =>
      match hexDigit? high, hexDigit? low with
      | some high, some low => .ok (high * 16 + low)
      | _, _ => .error (.during activity began .missingOctet cursor.mark)
  | _ => .error (.during activity began .missingOctet cursor.mark)

/-- Reads the octets of an escaped character that are still due. -/
def readOctets (activity : Activity) (began : Mark) (octets : Octets) (cursor : Cursor) :
    Nat → Except Problem (Octets × Cursor)
  | 0 => .ok (octets, cursor)
  | due + 1 => do
      let octet ← readOctet activity began cursor
      if octet / 0x40 ≠ 2 then
        throw (.during activity began .wrongTrailingOctet cursor.mark)
      readOctets activity began (octets ++ [octet.toUInt8]) (cursor.skip 3) due

/-- Reads an escaped character; gives its bytes. -/
def readEscapedOctets (activity : Activity) (began : Mark) (cursor : Cursor) :
    Except Problem (Octets × Cursor) := do
  let octet ← readOctet activity began cursor
  let width := octetWidth octet
  if width = 0 then throw (.during activity began .wrongLeadingOctet cursor.mark)
  readOctets activity began [octet.toUInt8] (cursor.skip 3) (width - 1)

/-- Reads the bytes of a URI. -/
def readUriBytes (verbatim : Bool) (activity : Activity) (began : Mark) (bytes : Octets)
    (cursor : Cursor) : Except Problem (Octets × Cursor) :=
  match _h : cursor.rest with
  | [] => .ok (bytes, cursor)
  | c :: _ =>
      if !isUriChar verbatim c then .ok (bytes, cursor)
      else if c == '%' then
        match readEscapedOctets activity began cursor with
        | .error problem => .error problem
        | .ok (octets, next) =>
            if next.rest.length < cursor.rest.length then
              readUriBytes verbatim activity began (bytes ++ octets) next
            else .ok (bytes ++ octets, next)
      else
        readUriBytes verbatim activity began (bytes ++ [c.toNat.toUInt8]) (cursor.skip 1)
termination_by cursor.rest.length
decreasing_by
  · omega
  · simp [Cursor.skip, _h]

/-- Reads a tag URI that follows `front`; the leading `!` of the front is no part of it. -/
def readUri (verbatim inDirective : Bool) (front : List Char) (began : Mark) (cursor : Cursor) :
    Except Problem (Octets × Cursor) := do
  let activity : Activity := if inDirective then .tagDirectiveUri else .tagUri
  let (bytes, next) ← readUriBytes verbatim activity began [] cursor
  if bytes.isEmpty && front.isEmpty then
    throw (.during activity began .missingTagUri next.mark)
  return (beforeZero (octetsOf (front.drop 1) ++ bytes), next)

/-- Reads the value of a tag directive. -/
def readTagDirective (began : Mark) (cursor : Cursor) : Except Problem (TokenKind × Cursor) := do
  let (handle, cursor) ← readHandle true began (cursor.skipWhile isBlank)
  if !cursor.seesAny isBlank then
    throw (.during .tagDirective began .missingBlank cursor.mark)
  let (uri, cursor) ← readUri true true [] began (cursor.skipWhile isBlank)
  if !cursor.gapAt 0 then
    throw (.during .tagDirective began .missingBlankOrBreak cursor.mark)
  return (.tagDirective (String.ofList handle) uri, cursor)

/-- Reads a directive and the rest of its line. -/
def fetchDirective (scanner : Scanner) : ScanStep := do
  let scanner ← (scanner.unrollIndent (-1)).dropKey
  let scanner := { scanner with keyAllowed := false }
  let began := scanner.mark
  let (name, cursor) := (scanner.cursor.skip 1).takeWhile isNameChar
  if name.isEmpty then
    throw (.during .directive began .missingDirectiveName cursor.mark)
  if !cursor.gapAt 0 then
    throw (.during .directive began .nonAlphabeticDirective cursor.mark)
  let (kind, cursor) ←
    if name == "YAML".toList then readVersion began cursor
    else if name == "TAG".toList then readTagDirective began cursor
    else throw (.during .directive began .unknownDirective cursor.mark)
  let rest ← readLineEnd .directive began cursor
  return { scanner.push kind began cursor.mark with cursor := rest }

/-! ## Anchors and tags -/

/-- Reads an anchor or a reference to one. -/
def fetchAnchor (scanner : Scanner) (activity : Activity) (kind : String → TokenKind) :
    ScanStep := do
  let scanner ← scanner.saveKey
  let began := scanner.mark
  let (name, cursor) := (scanner.cursor.skip 1).takeWhile isNameChar
  if name.isEmpty || !(cursor.gapAt 0 || cursor.seesAny "?:,]\x7d%@`".toList.contains) then
    throw (.during activity began .missingName cursor.mark)
  return { scanner.push (kind (String.ofList name)) began cursor.mark with
    cursor, keyAllowed := false }

/-- Reads the handle and the suffix of a tag. -/
def readTag (began : Mark) (cursor : Cursor) : Except Problem (String × Octets × Cursor) := do
  if cursor.ahead? 1 == some '<' then
    let (suffix, cursor) ← readUri true false [] began (cursor.skip 2)
    if !cursor.sees '>' then throw (.during .tag began .missingTagEnd cursor.mark)
    return ("", suffix, cursor.skip 1)
  else
    let (handle, cursor) ← readHandle false began cursor
    if handle.length > 1 && handle.getLast? == some '!' then
      let (suffix, cursor) ← readUri false false [] began cursor
      return (String.ofList handle, suffix, cursor)
    else
      let (suffix, cursor) ← readUri false false handle began cursor
      if suffix.isEmpty then return ("", octetsOf ['!'], cursor) else return ("!", suffix, cursor)

/-- Reads a tag. -/
def fetchTag (scanner : Scanner) : ScanStep := do
  let scanner ← scanner.saveKey
  let began := scanner.mark
  let (handle, suffix, cursor) ← readTag began scanner.cursor
  if !cursor.gapAt 0 && !(scanner.inFlow && cursor.sees ',') then
    throw (.during .tag began .missingBlankOrBreak cursor.mark)
  return { scanner.push (.tag handle suffix) began cursor.mark with
    cursor, keyAllowed := false }

/-! ## Indicators -/

/-- Ends the stream; unless it is at the start of a line it counts as one line further. -/
def fetchStreamEnd (scanner : Scanner) : ScanStep := do
  let mark := scanner.mark
  let final := if mark.column = 0 then mark else ⟨mark.index, mark.line + 1, 0⟩
  let scanner := { scanner with cursor := { scanner.cursor with mark := final } }
  let scanner ← (scanner.unrollIndent (-1)).dropKey
  return { scanner.push .streamEnd final final with keyAllowed := false, ended := true }

/-- Reads a document marker. -/
def fetchDocumentIndicator (scanner : Scanner) (kind : TokenKind) : ScanStep := do
  let scanner ← (scanner.unrollIndent (-1)).dropKey
  return ({ scanner with keyAllowed := false }).pushIndicator kind 3

/-- Opens a flow collection. -/
def fetchFlowStart (scanner : Scanner) (kind : TokenKind) : ScanStep := do
  let scanner ← scanner.saveKey
  return ({ scanner with
    simpleKeys := none :: scanner.simpleKeys
    keyAllowed := true }).pushIndicator kind 1

/-- Closes a flow collection. -/
def fetchFlowEnd (scanner : Scanner) (kind : TokenKind) : ScanStep := do
  let scanner ← scanner.dropKey
  let simpleKeys := if scanner.inFlow then scanner.simpleKeys.tail else scanner.simpleKeys
  return ({ scanner with simpleKeys, keyAllowed := false }).pushIndicator kind 1

/-- Reads a comma between flow entries. -/
def fetchFlowEntry (scanner : Scanner) : ScanStep := do
  let scanner ← scanner.dropKey
  return ({ scanner with keyAllowed := true }).pushIndicator .flowEntry 1

/-- Opens a block collection at an indicator where that is allowed. -/
def openBlock (scanner : Scanner) (cause : Cause) (kind : TokenKind) : ScanStep :=
  if scanner.inFlow then .ok scanner
  else if scanner.keyAllowed then
    .ok (scanner.rollIndent scanner.mark.column none kind scanner.mark)
  else scanner.fail cause

/-- Reads the dash of a block entry. -/
def fetchBlockEntry (scanner : Scanner) : ScanStep := do
  let scanner ← scanner.openBlock .entryNotAllowed .blockSequenceStart
  let scanner ← scanner.dropKey
  return ({ scanner with keyAllowed := true }).pushIndicator .blockEntry 1

/-- Reads the question mark of a key. -/
def fetchKey (scanner : Scanner) : ScanStep := do
  let scanner ← scanner.openBlock .keyNotAllowed .blockMappingStart
  let scanner ← scanner.dropKey
  return ({ scanner with keyAllowed := !scanner.inFlow }).pushIndicator .key 1

/-- Reads the colon before a value; an open simple key gets its markers now. -/
def fetchValue (scanner : Scanner) : ScanStep := do
  match scanner.simpleKeys with
  | some key :: outer =>
      let scanner := scanner.insert key.token .key key.mark
      let scanner :=
        scanner.rollIndent key.mark.column (some key.token) .blockMappingStart key.mark
      return ({ scanner with
        simpleKeys := none :: outer
        keyAllowed := false }).pushIndicator .value 1
  | _ =>
      let scanner ← scanner.openBlock .valueNotAllowed .blockMappingStart
      return ({ scanner with keyAllowed := !scanner.inFlow }).pushIndicator .value 1

/-! ## Scalars -/

/-- Reads a block scalar. -/
def fetchBlockScalar (scanner : Scanner) (style : ScalarStyle) : ScanStep := do
  let scanner ← scanner.dropKey
  let began := scanner.mark
  let (text, cursor) ←
    readBlock (style == .literal) scanner.indent began (scanner.cursor.skip 1)
  return { scanner.push (.scalar text style) began cursor.mark with
    cursor, keyAllowed := true }

/-- Reads a quoted scalar. -/
def fetchQuoted (scanner : Scanner) (style : ScalarStyle) : ScanStep := do
  let scanner ← scanner.saveKey
  let began := scanner.mark
  let (text, cursor) ←
    readQuoted (style == .singleQuoted) began [] .none (scanner.cursor.skip 1)
  return { scanner.push (.scalar text style) began cursor.mark with
    cursor, keyAllowed := false }

/-- Reads a plain scalar; a key may begin after the line breaks behind it. -/
def fetchPlain (scanner : Scanner) : ScanStep := do
  let scanner ← scanner.saveKey
  let began := scanner.mark
  let plain ←
    readPlain scanner.inFlow (scanner.indent + 1) began [] .none began true scanner.cursor
  return { scanner.push (.scalar plain.text .plain) began plain.stop with
    cursor := plain.cursor, keyAllowed := plain.broken }

/-- Whether a plain scalar starts here. -/
def startsPlain (scanner : Scanner) (c : Char) : Bool :=
  let cursor := scanner.cursor
  !(isBlank c || isBreak c || "-?:,[]\x7b\x7d#&*!|>'\"%@`".toList.contains c) ||
    (c == '-' && !(cursor.ahead? 1).any isBlank) ||
    (!scanner.inFlow && (c == '?' || c == ':') && !cursor.gapAt 1)

/-- Reads the next token and what stands before it. -/
def fetch (scanner : Scanner) : ScanStep := do
  let (cursor, keyAllowed) := skipToToken scanner.inFlow scanner.keyAllowed scanner.cursor
  let scanner ← ({ scanner with cursor, keyAllowed }).dropStaleKeys
  let scanner := scanner.unrollIndent scanner.mark.column
  match cursor.rest with
  | [] => scanner.fetchStreamEnd
  | c :: _ =>
      let inFlow := scanner.inFlow
      if cursor.mark.column == 0 && c == '%' then scanner.fetchDirective
      else if cursor.atIndicator '-' then scanner.fetchDocumentIndicator .documentStart
      else if cursor.atIndicator '.' then scanner.fetchDocumentIndicator .documentEnd
      else if c == '[' then scanner.fetchFlowStart .flowSequenceStart
      else if c == '\x7b' then scanner.fetchFlowStart .flowMappingStart
      else if c == ']' then scanner.fetchFlowEnd .flowSequenceEnd
      else if c == '\x7d' then scanner.fetchFlowEnd .flowMappingEnd
      else if c == ',' then scanner.fetchFlowEntry
      else if c == '-' && cursor.gapAt 1 then scanner.fetchBlockEntry
      else if c == '?' && (inFlow || cursor.gapAt 1) then scanner.fetchKey
      else if c == ':' && (inFlow || cursor.gapAt 1) then scanner.fetchValue
      else if c == '*' then scanner.fetchAnchor .reference .reference
      else if c == '&' then scanner.fetchAnchor .anchor .anchor
      else if c == '!' then scanner.fetchTag
      else if c == '|' && !inFlow then scanner.fetchBlockScalar .literal
      else if c == '>' && !inFlow then scanner.fetchBlockScalar .folded
      else if c == '\'' then scanner.fetchQuoted .singleQuoted
      else if c == '"' then scanner.fetchQuoted .doubleQuoted
      else if scanner.startsPlain c then scanner.fetchPlain
      else throw (.during .nextToken scanner.mark .cannotStartToken scanner.mark)

/-! ## Release -/

/-- Whether more must be read before the first waiting token can be released. -/
def waits (scanner : Scanner) : Bool :=
  scanner.queue.isEmpty ||
    scanner.simpleKeys.any fun key => key.any (·.token == scanner.released)

/-- What is left to be done: bytes to be read, the end to be reached. -/
def left (size : Nat) (scanner : Scanner) : Nat :=
  (size - scanner.mark.index) + (if scanner.ended then 0 else 1)

/-- Releases tokens one by one, reading on where the first one has to wait. Gives the tokens and
the problem that stopped the scan. A read that gets nowhere stops it too. -/
def release (size : Nat) (scanner : Scanner) : List Token × Option Problem :=
  let stale :=
    if scanner.queue.isEmpty then Except.ok scanner else scanner.dropStaleKeys
  match stale with
  | .error problem => ([], some problem)
  | .ok scanner' =>
      if scanner'.waits then
        if scanner.ended then ([], none)
        else
          match scanner'.fetch with
          | .error problem => ([], some problem)
          | .ok next =>
              if next.left size < scanner.left size then next.release size else ([], none)
      else
        match _h : scanner.queue with
        | [] => ([], none)
        | token :: queue =>
            let (tokens, problem) :=
              ({ scanner with
                simpleKeys := scanner'.simpleKeys
                queue
                released := scanner.released + 1 }).release size
            (token :: tokens, problem)
termination_by (scanner.left size, scanner.queue.length)
decreasing_by
  · exact Prod.Lex.left _ _ ‹_›
  · simp only [left, mark, _h]
    exact Prod.Lex.right _ (by simp)

end Scanner

/-- The tokens of a stream, and the problem that stopped the scan. -/
def tokens (text : List Char) : List Token × Option Problem :=
  match firstControl? 0 text with
  | some offset => ([], some { cause := .controlCharacter, mark := ⟨0, 0, 0⟩, offset })
  | none => (Scanner.start text).release (Text.byteLength text)

end Heredoc.Yaml
