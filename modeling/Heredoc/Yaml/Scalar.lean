import Heredoc.Yaml.Cursor

/-!
# YAML scalars

How quoted, plain and block scalars are read: which characters belong to them, how line breaks
inside them are folded, and what an escape stands for.
-/

namespace Heredoc.Yaml

/-- How a scalar was written. -/
inductive ScalarStyle where
  | plain
  | singleQuoted
  | doubleQuoted
  | literal
  | folded
deriving DecidableEq, Repr

/-- The blanks and line breaks between two words of a scalar. -/
structure Gap where
  /-- Whether there was a line break. -/
  broken : Bool
  /-- Blanks as long as there was none. -/
  blanks : List Char
  /-- The first line break. -/
  first : List Char
  /-- The line breaks after the first. -/
  later : List Char
deriving Repr, Inhabited

namespace Gap

/-- No gap. -/
def none : Gap := ⟨false, [], [], []⟩

/-- One more blank: it counts only before the first line break. -/
def addBlank (gap : Gap) (c : Char) : Gap :=
  if gap.broken then gap else { gap with blanks := gap.blanks ++ [c] }

/-- One more line break: the first one makes the blanks before it void. -/
def addBreak (gap : Gap) (lineBreak : List Char) : Gap :=
  if gap.broken then { gap with later := gap.later ++ lineBreak }
  else { gap with broken := true, blanks := [], first := lineBreak }

/-- What the gap stands for: its blanks, a space for one line break, or the breaks after the
first. -/
def text (gap : Gap) : List Char :=
  if !gap.broken then gap.blanks
  else if gap.first.head? == some '\n' then
    if gap.later.isEmpty then [' '] else gap.later
  else gap.first ++ gap.later

end Gap

/-! ## Quoted scalars -/

/-- The character of an escape with one letter. -/
def simpleEscape? : Char → Option Char
  | '0' => some '\x00'
  | 'a' => some '\x07'
  | 'b' => some '\x08'
  | 't' => some '\t'
  | '\t' => some '\t'
  | 'n' => some '\n'
  | 'v' => some '\x0b'
  | 'f' => some '\x0c'
  | 'r' => some '\r'
  | 'e' => some '\x1b'
  | ' ' => some ' '
  | '"' => some '"'
  | '/' => some '/'
  | '\\' => some '\\'
  | 'N' => some '\u0085'
  | '_' => some '\u00a0'
  | 'L' => some '\u2028'
  | 'P' => some '\u2029'
  | _ => none

/-- The number of hexadecimal digits of a numeric escape. -/
def escapeLength? : Char → Option Nat
  | 'x' => some 2
  | 'u' => some 4
  | 'U' => some 8
  | _ => none

/-- Reads an escape at its backslash; gives the character and the number of characters read. -/
def readEscape (began : Mark) (cursor : Cursor) : Except Problem (Char × Nat) :=
  let fail (cause : Cause) (mark : Mark) : Except Problem (Char × Nat) :=
    .error (.during .quotedScalarEscape began cause mark)
  match cursor.ahead? 1 with
  | none => fail .unknownEscape cursor.mark
  | some letter =>
      match simpleEscape? letter, escapeLength? letter with
      | some c, _ => .ok (c, 2)
      | none, none => fail .unknownEscape cursor.mark
      | none, some length =>
          let digits := (cursor.rest.drop 2).take length
          match digits.mapM hexDigit? with
          | none => fail .missingHexDigit (cursor.skip 2).mark
          | some values =>
              if values.length < length then fail .missingHexDigit (cursor.skip 2).mark
              else
                let point := values.foldl (fun point digit => point * 16 + digit) 0
                if (0xD800 ≤ point && point ≤ 0xDFFF) || point > 0x10FFFF then
                  fail .invalidCodePoint (cursor.skip 2).mark
                else .ok (Char.ofNat point, length + 2)

/-- Reads a quoted scalar from after its opening quote on; `content` holds what was read so far,
last character first. -/
def readQuoted (single : Bool) (began : Mark) (content : List Char) (gap : Gap)
    (cursor : Cursor) : Except Problem (String × Cursor) :=
  let fail (cause : Cause) : Except Problem (String × Cursor) :=
    .error (.during .quotedScalar began cause cursor.mark)
  if cursor.atDocumentIndicator then fail .unexpectedIndicator
  else match _h : cursor.rest with
    | [] => fail .unexpectedEnd
    | c :: rest =>
        if isBlank c then
          readQuoted single began content (gap.addBlank c) (cursor.skip 1)
        else if _hb : isBreak c = true then
          readQuoted single began content (gap.addBreak cursor.takeBreak.1) cursor.takeBreak.2
        else
          let content := gap.text.reverse ++ content
          if single && c == '\'' && rest.head? == some '\'' then
            readQuoted single began ('\'' :: content) .none (cursor.skip 2)
          else if c == (if single then '\'' else '"') then
            .ok (String.ofList content.reverse, cursor.skip 1)
          else if !single && c == '\\' then
            if _hn : (cursor.skip 1).seesAny isBreak = true then
              readQuoted single began content { Gap.none with broken := true }
                (cursor.skip 1).takeBreak.2
            else
              match readEscape began cursor with
              | .error problem => .error problem
              | .ok (meant, count) =>
                  readQuoted single began (meant :: content) .none
                    (cursor.skip (max count 1))
          else readQuoted single began (c :: content) .none (cursor.skip 1)
termination_by cursor.rest.length
decreasing_by
  · simp [Cursor.skip, _h]
  · exact Cursor.length_takeBreak_lt cursor (by simp [Cursor.seesAny, _h, _hb])
  · simp only [Cursor.skip, _h, List.length_drop, List.length_cons]
    omega
  · have := Cursor.length_takeBreak_lt _ _hn
    have := Cursor.length_skip_le cursor 1
    omega
  · simp only [Cursor.skip, _h, List.length_drop, List.length_cons]
    omega
  · simp [Cursor.skip, _h]

/-! ## Plain scalars -/

/-- The characters that end a plain scalar inside flow collections. -/
def isFlowEnd (c : Char) : Bool :=
  c == ',' || c == '[' || c == ']' || c == '\x7b' || c == '\x7d'

/-- A plain scalar that was read: its text, its end, what is left, and whether line breaks
followed it. -/
structure Plain where
  text : String
  stop : Mark
  cursor : Cursor
  broken : Bool

/-- Reads a plain scalar. `fresh` is true at its start and after a gap, `indent` the column it
must not fall below outside flow collections. -/
def readPlain (inFlow : Bool) (indent : Int) (began : Mark) (content : List Char) (gap : Gap)
    (stop : Mark) (fresh : Bool) (cursor : Cursor) : Except Problem Plain :=
  let finish (_ : Unit) : Except Problem Plain :=
    .ok ⟨String.ofList content.reverse, stop, cursor, gap.broken⟩
  let fail (cause : Cause) : Except Problem Plain :=
    .error (.during .plainScalar began cause cursor.mark)
  match _h : cursor.rest with
  | [] => finish ()
  | c :: _ =>
      if isBlank c then
        if gap.broken && (cursor.mark.column : Int) < indent && c == '\t' then
          fail .tabBeforeText
        else readPlain inFlow indent began content (gap.addBlank c) stop true (cursor.skip 1)
      else if _hb : isBreak c = true then
        readPlain inFlow indent began content (gap.addBreak cursor.takeBreak.1) stop true
          cursor.takeBreak.2
      else if fresh && !content.isEmpty && !inFlow && (cursor.mark.column : Int) < indent then
        finish ()
      else if fresh && (cursor.atDocumentIndicator || c == '#') then finish ()
      else if inFlow && c == ':' &&
          (cursor.ahead? 1).any (fun d => isFlowEnd d || d == '?') then fail .unexpectedColon
      else if (c == ':' && cursor.gapAt 1) || (inFlow && isFlowEnd c) then finish ()
      else
        let next := cursor.skip 1
        readPlain inFlow indent began (c :: (gap.text.reverse ++ content)) .none next.mark false
          next
termination_by cursor.rest.length
decreasing_by
  · simp [Cursor.skip, _h]
  · exact Cursor.length_takeBreak_lt cursor (by simp [Cursor.seesAny, _h, _hb])
  · simp [Cursor.skip, _h]

/-! ## Block scalars -/

/-- What happens to the line breaks at the end of a block scalar. -/
inductive Chomping where
  | strip
  | clip
  | keep
deriving DecidableEq, Repr

/-- The line breaks before a line of a block scalar. -/
structure Breaks where
  lineBreaks : List Char
  /-- The deepest column reached in blank lines. -/
  deepest : Nat
  cursor : Cursor

/-- Steps over indentation spaces; `indent` is zero while it is not known. -/
def skipIndent (indent : Nat) (cursor : Cursor) : Cursor :=
  let reached := if indent = 0 then cursor.rest else cursor.rest.take (indent - cursor.mark.column)
  cursor.skip (reached.takeWhile (· == ' ')).length

/-- Steps over indentation and empty lines; `indent` is zero while it is not known. -/
def readBreaks (began : Mark) (indent : Nat) (breaks : Breaks) : Except Problem Breaks :=
  let next := skipIndent indent breaks.cursor
  let deepest := max breaks.deepest next.mark.column
  if (indent = 0 ∨ next.mark.column < indent) ∧ next.sees '\t' then
    .error (.during .blockScalar began .tabInIndentation next.mark)
  else if _more : next.seesAny isBreak = true then
    readBreaks began indent
      ⟨breaks.lineBreaks ++ next.takeBreak.1, deepest, next.takeBreak.2⟩
  else .ok { breaks with deepest, cursor := next }
termination_by breaks.cursor.rest.length
decreasing_by
  exact Nat.lt_of_lt_of_le (Cursor.length_takeBreak_lt _ _more) (Cursor.length_skip_le ..)

theorem length_readBreaks_le (began : Mark) (indent : Nat) (breaks : Breaks) {found : Breaks}
    (h : readBreaks began indent breaks = .ok found) :
    found.cursor.rest.length ≤ breaks.cursor.rest.length := by
  fun_induction readBreaks began indent breaks with
  | case1 => simp at h
  | case2 breaks next deepest _ more ih =>
    have shorter := Cursor.length_takeBreak_lt next more
    have skipped : next.rest.length ≤ breaks.cursor.rest.length := Cursor.length_skip_le ..
    have := ih h
    simp only at this
    omega
  | case3 breaks next =>
    have skipped : next.rest.length ≤ breaks.cursor.rest.length := Cursor.length_skip_le ..
    obtain rfl := Except.ok.inj h
    exact skipped

/-- Reads the lines of a block scalar. `lead` is the break after the last line, `leadBlank`
whether that line began with a blank, `content` what was read so far, last character first. -/
def readBlockLines (literal : Bool) (began : Mark) (indent : Nat) (content lead : List Char)
    (leadBlank : Bool) (breaks : Breaks) :
    Except Problem (List Char × List Char × Breaks) :=
  let cursor := breaks.cursor
  if _done : cursor.mark.column ≠ indent ∨ cursor.atEnd then .ok (content, lead, breaks)
  else
    let blank := cursor.seesAny isBlank
    let joint :=
      if !literal && lead.head? == some '\n' && !leadBlank && !blank then
        if breaks.lineBreaks.isEmpty then [' '] else []
      else lead
    let line := cursor.takeLine
    match _found : readBreaks began indent ⟨[], 0, line.2.takeBreak.2⟩ with
    | .error problem => .error problem
    | .ok following =>
        let content :=
          line.1.reverse ++ (breaks.lineBreaks.reverse ++ (joint.reverse ++ content))
        readBlockLines literal began indent content line.2.takeBreak.1 blank following
termination_by breaks.cursor.rest.length
decreasing_by
  have following := length_readBreaks_le _ _ _ _found
  have shorter := Cursor.length_takeLine_lt breaks.cursor fun ended => _done (.inr ended)
  exact Nat.lt_of_le_of_lt following shorter

/-- The header of a block scalar: what its end does, its indentation if given, what is left. -/
def readBlockHeader (began : Mark) (cursor : Cursor) :
    Except Problem (Chomping × Nat × Cursor) := do
  let chomping? (cursor : Cursor) : Option Chomping :=
    if cursor.sees '+' then some .keep else if cursor.sees '-' then some .strip else none
  let readIndent (cursor : Cursor) : Except Problem (Nat × Cursor) :=
    match cursor.rest.head? with
    | some c =>
        if c == '0' then .error (.during .blockScalar began .zeroIndentation cursor.mark)
        else if c.isDigit then .ok (c.toNat - '0'.toNat, cursor.skip 1)
        else .ok (0, cursor)
    | none => .ok (0, cursor)
  match chomping? cursor with
  | some chomping =>
      let (indent, cursor) ← readIndent (cursor.skip 1)
      return (chomping, indent, cursor)
  | none =>
      let (indent, cursor) ← readIndent cursor
      match chomping? cursor with
      | some chomping =>
          if indent = 0 then return (.clip, indent, cursor)
          else return (chomping, indent, cursor.skip 1)
      | none => return (.clip, indent, cursor)

/-- Steps over blanks and a comment up to the end of a line, and over its break. -/
def readLineEnd (activity : Activity) (began : Mark) (cursor : Cursor) : Except Problem Cursor :=
  let cursor := cursor.skipWhile isBlank
  let cursor := if cursor.sees '#' then cursor.skipWhile (!isBreak ·) else cursor
  if cursor.atLineEnd then .ok cursor.takeBreak.2
  else .error (.during activity began .missingLineEnd cursor.mark)

/-- Reads a block scalar after its indicator; `parent` is the indentation around it. -/
def readBlock (literal : Bool) (parent : Int) (began : Mark) (cursor : Cursor) :
    Except Problem (String × Cursor) := do
  let (chomping, increment, cursor) ← readBlockHeader began cursor
  let cursor ← readLineEnd .blockScalar began cursor
  let given := if increment = 0 then 0 else (max parent 0).toNat + increment
  let breaks ← readBreaks began given ⟨[], 0, cursor⟩
  let indent :=
    if given = 0 then max breaks.deepest (max (parent + 1).toNat 1) else given
  let (content, lead, breaks) ← readBlockLines literal began indent [] [] false breaks
  let tail := match chomping with
    | .strip => []
    | .clip => lead
    | .keep => lead ++ breaks.lineBreaks
  return (String.ofList (content.reverse ++ tail), breaks.cursor)

end Heredoc.Yaml
