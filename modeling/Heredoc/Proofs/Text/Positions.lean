import Heredoc.Proofs.Text.Offsets
import Mathlib.Data.List.TakeWhile

/-!
# Offsets, lines with byte columns, and positions

A byte offset has a line and a byte column, counted on the bytes in front of it, and a position,
counted on the whole characters in front of it. Main statement: the line and the column lead back to
the offset; a line and a column lead to the position of the last place on that line up to the
column, as long as the start of the line and the column add up to a machine word; and in a text with
fewer than `2 ^ 32` lines and characters per line, positions are ordered as offsets are and tell the
places apart (`offsets_and_positions`).
-/

namespace Heredoc

namespace Position

/-- Positions are compared by line, and on one line by character. -/
theorem compare_eq (position other : Position) :
    compare position other =
      (compare position.line other.line).then (compare position.character other.character) := by
  change instOrdPosition.ord position other = _
  obtain ⟨line, character⟩ := position
  obtain ⟨otherLine, otherCharacter⟩ := other
  simp only [instOrdPosition.ord, Ordering.then_eq]

theorem compare_eq_lt {position other : Position} :
    compare position other = .lt ↔
      position.line < other.line ∨
        position.line = other.line ∧ position.character < other.character := by
  rw [compare_eq, Ordering.then_eq_lt, Std.compare_eq_lt, Std.compare_eq_lt,
    Std.compare_eq_iff_eq]

theorem compare_self (position : Position) : compare position position = .eq := by
  rw [compare_eq, Std.compare_self, Std.compare_self]
  rfl

end Position

namespace Text

variable {cs : List Char} {offset : Nat}

/-! ## At characters and inside them -/

/-- A character starts at the offset, or the text ends there. -/
def IsBoundary (cs : List Char) (offset : Nat) : Prop :=
  ∃ left right, cs = left ++ right ∧ byteLength left = offset

theorem isBoundary_or_inside (reached : offset ≤ byteLength cs) :
    IsBoundary cs offset ∨
      ∃ left c right,
        cs = left ++ c :: right ∧ byteLength left < offset ∧
          offset < byteLength left + c.utf8Size := by
  induction cs generalizing offset with
  | nil => exact .inl ⟨[], [], rfl, (Nat.le_zero.mp reached).symm⟩
  | cons c rest inductionHypothesis =>
      rw [byteLength] at reached
      rcases Nat.lt_or_ge offset c.utf8Size with inside | after
      · rcases Nat.eq_zero_or_pos offset with rfl | positive
        · exact .inl ⟨[], c :: rest, rfl, rfl⟩
        · refine .inr ⟨[], c, rest, rfl, positive, ?_⟩
          rwa [byteLength, Nat.zero_add]
      · have restReached : offset - c.utf8Size ≤ byteLength rest := by omega
        rcases inductionHypothesis restReached with
          ⟨left, right, rfl, total⟩ | ⟨left, d, right, rfl, begun, unfinished⟩
        · refine .inl ⟨c :: left, right, rfl, ?_⟩
          rw [byteLength, total]
          omega
        · refine .inr ⟨c :: left, d, right, rfl, ?_, ?_⟩
          · rw [byteLength]
            omega
          · rw [byteLength]
            omega

/-! ## From an offset to its line and column, and back -/

/-- The line of a byte offset: the line feeds among the bytes in front of it. -/
def lineAt (cs : List Char) (offset : Nat) : Nat :=
  ((bytes cs).take offset).count (byte '\n')

/-- The byte column of a byte offset: the bytes in front of it, back to the last line feed. -/
def columnAt (cs : List Char) (offset : Nat) : Nat :=
  (((bytes cs).take offset).reverse.takeWhile (· ≠ byte '\n')).length

theorem byte_newline_mem_bytes : byte '\n' ∈ bytes cs ↔ '\n' ∈ cs := by
  rw [bytes, List.mem_flatMap]
  constructor
  · rintro ⟨c, member, encoded⟩
    rwa [← byte_mem_utf8EncodeChar (by decide) encoded]
  · intro member
    exact ⟨'\n', member, by decide⟩

theorem bytes_append_newline (left right : List Char) :
    bytes (left ++ '\n' :: right) = bytes left ++ byte '\n' :: bytes right := by
  rw [bytes_append, bytes_cons_of_lt (by decide)]

theorem count_newline_bytes (cs : List Char) : (bytes cs).count (byte '\n') = cs.count '\n' := by
  induction cs with
  | nil => rfl
  | cons c rest inductionHypothesis =>
      by_cases newline : c = '\n'
      · subst c
        rw [bytes_cons_of_lt (by decide), List.count_cons_self, List.count_cons_self,
          inductionHypothesis]
      · have absent : byte '\n' ∉ String.utf8EncodeChar c := fun member =>
          newline (byte_mem_utf8EncodeChar (by decide) member)
        rw [bytes, List.flatMap_cons, List.count_append, List.count_eq_zero_of_not_mem absent,
          List.count_cons_of_ne newline, Nat.zero_add]
        exact inductionHypothesis

section Marks

variable {α : Type} [DecidableEq α] {mark : α} {tail : List α}

theorem takeWhile_reverse_of_not_mem (absent : mark ∉ tail) :
    tail.reverse.takeWhile (· ≠ mark) = tail.reverse := by
  rw [List.takeWhile_eq_self_iff]
  exact decide_ne_of_not_mem fun member => absent (List.mem_reverse.mp member)

theorem takeWhile_reverse_append_cons (absent : mark ∉ tail) (front : List α) :
    (front ++ mark :: tail).reverse.takeWhile (· ≠ mark) = tail.reverse := by
  have passed := List.takeWhile_eq_self_iff.mp (takeWhile_reverse_of_not_mem absent)
  rw [List.reverse_append, List.reverse_cons, List.append_assoc,
    List.takeWhile_append_of_pos passed, List.singleton_append,
    List.takeWhile_cons_of_neg (by simp), List.append_nil]

end Marks

/-- Bytes without a line feed after a text make its last line longer. -/
theorem length_takeWhile_bytes_append
    {extra : List UInt8} (unbroken : byte '\n' ∉ extra) (left : List Char) :
    ((bytes left ++ extra).reverse.takeWhile (· ≠ byte '\n')).length =
      byteLength (lastLine left) + extra.length := by
  have lastUnbroken : byte '\n' ∉ bytes (lastLine left) ++ extra := by
    rw [List.mem_append, byte_newline_mem_bytes]
    exact not_or.mpr ⟨not_mem_afterLast '\n' left, unbroken⟩
  have size : (bytes (lastLine left) ++ extra).length =
      byteLength (lastLine left) + extra.length := by
    rw [List.length_append, length_bytes]
  rw [← size]
  cases last : beforeLast? '\n' left with
  | none =>
      have whole : lastLine left = left := afterLast_of_beforeLast?_eq_none last
      rw [whole] at lastUnbroken ⊢
      rw [takeWhile_reverse_of_not_mem lastUnbroken, List.length_reverse]
  | some kept =>
      have whole : left = kept ++ '\n' :: lastLine left := eq_append_of_beforeLast? last
      have split :
          bytes left ++ extra =
            bytes kept ++ byte '\n' :: (bytes (lastLine left) ++ extra) := by
        calc
          bytes left ++ extra = bytes (kept ++ '\n' :: lastLine left) ++ extra := by rw [← whole]
          _ = bytes kept ++ byte '\n' :: (bytes (lastLine left) ++ extra) := by
            rw [bytes_append_newline, List.append_assoc, List.cons_append]
      rw [split, takeWhile_reverse_append_cons lastUnbroken, List.length_reverse]

theorem take_bytes_append (left right : List Char) :
    (bytes (left ++ right)).take (byteLength left) = bytes left := by
  rw [bytes_append, ← length_bytes, List.take_left]

theorem take_bytes_inside
    {left : List Char} {c : Char}
    (begun : byteLength left ≤ offset) (unfinished : offset < byteLength left + c.utf8Size)
    (right : List Char) :
    (bytes (left ++ c :: right)).take offset =
      bytes left ++ (String.utf8EncodeChar c).take (offset - byteLength left) := by
  have split : bytes (c :: right) = String.utf8EncodeChar c ++ bytes right := List.flatMap_cons
  have within : offset - byteLength left ≤ (String.utf8EncodeChar c).length := by
    rw [String.length_utf8EncodeChar]
    omega
  rw [bytes_append, split, List.take_append, List.take_of_length_le (length_bytes left ▸ begun),
    length_bytes, List.take_append_of_le_length within]

/-- A column that goes on behind a place, with no line feed on the way, leads as far behind it. -/
theorem offsetOf_append
    {more : List Char} {extra : Nat}
    (unbroken : '\n' ∉ more) (within : extra ≤ byteLength more) (left right : List Char) :
    offsetOf (left ++ (more ++ right)) (left.count '\n') (byteLength (lastLine left) + extra) =
      byteLength left + extra := by
  have feeds : (left ++ more).count '\n' = left.count '\n' := by
    rw [List.count_append, List.count_eq_zero_of_not_mem unbroken, Nat.add_zero]
  have onLine := lastLine_append_of_not_mem unbroken left
  have leftTotal := byteLength_eq_lastLineStart_add left
  have total := byteLength_eq_lastLineStart_add (left ++ more)
  rw [onLine, byteLength_append, byteLength_append] at total
  rw [← List.append_assoc, ← feeds, offsetOf_lastLine]
  · omega
  · rw [onLine, byteLength_append]
    omega

/-- Where an offset lies: so many bytes on in a part of its line. -/
theorem exists_part_of_le (reached : offset ≤ byteLength cs) :
    ∃ left more right extra,
      cs = left ++ (more ++ right) ∧ '\n' ∉ more ∧ extra ≤ byteLength more ∧
        offset = byteLength left + extra ∧ lineAt cs offset = left.count '\n' ∧
          columnAt cs offset = byteLength (lastLine left) + extra := by
  rcases isBoundary_or_inside reached with
    ⟨left, right, rfl, rfl⟩ | ⟨left, c, right, rfl, begun, unfinished⟩
  · have nothing : byte '\n' ∉ ([] : List UInt8) := List.not_mem_nil
    have column := length_takeWhile_bytes_append nothing left
    rw [List.append_nil, List.length_nil] at column
    refine ⟨left, [], right, 0, rfl, List.not_mem_nil, Nat.zero_le _, rfl, ?_, ?_⟩
    · rw [lineAt, take_bytes_append, count_newline_bytes]
    · rw [columnAt, take_bytes_append, column]
  · -- The line feed has one byte, so the character is another one, and so are its bytes.
    have other : c ≠ '\n' := by
      rintro rfl
      have single : ('\n' : Char).utf8Size = 1 := rfl
      omega
    have unbroken :
        byte '\n' ∉ (String.utf8EncodeChar c).take (offset - byteLength left) := fun member =>
      other (byte_mem_utf8EncodeChar (by decide) (List.mem_of_mem_take member))
    have size :
        ((String.utf8EncodeChar c).take (offset - byteLength left)).length =
          offset - byteLength left := by
      rw [List.length_take, String.length_utf8EncodeChar]
      omega
    have within : offset - byteLength left ≤ byteLength [c] := by
      rw [byteLength, byteLength]
      omega
    have taken := take_bytes_inside (Nat.le_of_lt begun) unfinished right
    refine ⟨left, [c], right, offset - byteLength left, rfl,
      fun member => other (List.mem_singleton.mp member).symm, within, by omega, ?_, ?_⟩
    · rw [lineAt, taken, List.count_append, count_newline_bytes,
        List.count_eq_zero_of_not_mem unbroken, Nat.add_zero]
    · rw [columnAt, taken, length_takeWhile_bytes_append unbroken, size]

/-- The line and the column of an offset lead back to it, even inside a character. -/
theorem offsetOf_lineAt_columnAt (reached : offset ≤ byteLength cs) :
    offsetOf cs (lineAt cs offset) (columnAt cs offset) = offset := by
  obtain ⟨left, more, right, extra, rfl, unbroken, within, total, line, column⟩ :=
    exists_part_of_le reached
  rw [line, column, offsetOf_append unbroken within, total]

/-- An offset is its column on from the start of its line. -/
theorem lineStart_add_columnAt (reached : offset ≤ byteLength cs) :
    lineStart (lineAt cs offset) cs + columnAt cs offset = offset := by
  obtain ⟨left, more, right, extra, rfl, _, _, total, line, column⟩ :=
    exists_part_of_le reached
  have start := byteLength_eq_lastLineStart_add left
  rw [line, column, lineStart_count]
  omega

/-! ## From a line and a column to a position -/

/-- So many characters of a text lie within its first bytes, and no more. -/
structure CountsWhole (text : List Char) (budget count : Nat) : Prop where
  known : count ≤ text.length
  fits : byteLength (text.take count) ≤ budget
  most :
    ∀ more, more ≤ text.length → byteLength (text.take more) ≤ budget → more ≤ count

theorem countsWhole_fitting (text : List Char) (budget : Nat) :
    CountsWhole text budget (fitting budget text).length := by
  have front := fitting_prefix budget text
  refine ⟨front.length_le, ?_, ?_⟩
  · rw [← List.prefix_iff_eq_take.mp front]
    exact byteLength_fitting_le budget text
  · intro more known fits
    have longer := (prefix_fitting (List.take_prefix more text) fits).length_le
    rwa [List.length_take_of_le known] at longer

theorem fitting_add (left right : List Char) (budget : Nat) :
    fitting (byteLength left + budget) (left ++ right) = left ++ fitting budget right := by
  induction left with
  | nil => rw [byteLength, Nat.zero_add, List.nil_append, List.nil_append]
  | cons c rest inductionHypothesis =>
      rw [byteLength, List.cons_append, fitting, if_pos (by omega), Nat.add_assoc,
        Nat.add_sub_cancel_left, inductionHypothesis, List.cons_append]

theorem fitting_append_of_le
    {text : List Char} {budget : Nat} (short : budget ≤ byteLength text) (right : List Char) :
    fitting budget (text ++ right) = fitting budget text := by
  induction text generalizing budget with
  | nil =>
      obtain rfl : budget = 0 := Nat.le_zero.mp short
      exact fitting_byteLength_append [] right
  | cons c rest inductionHypothesis =>
      rw [byteLength] at short
      rw [List.cons_append, fitting, fitting]
      by_cases fits : c.utf8Size ≤ budget
      · rw [if_pos fits, if_pos fits, inductionHypothesis (by omega)]
      · rw [if_neg fits, if_neg fits]

/-- Where a line stands in a text. -/
theorem exists_of_getElem?_splitLines
    {line : Nat} {text : List Char} (found : (splitLines cs)[line]? = some text) :
    ∃ left right,
      cs = left ++ (text ++ right) ∧ left.count '\n' = line ∧
        (left = [] ∨ ∃ kept, left = kept ++ ['\n']) ∧ right.takeWhile (· ≠ '\n') = [] := by
  induction cs generalizing line text with
  | nil =>
      cases line with
      | zero =>
          obtain rfl := Option.some.inj found
          exact ⟨[], [], rfl, rfl, .inl rfl, rfl⟩
      | succ line => cases found
  | cons c rest inductionHypothesis =>
      by_cases newline : c = '\n'
      · subst c
        rw [splitLines_cons_newline] at found
        cases line with
        | zero =>
            obtain rfl := Option.some.inj found
            exact ⟨[], '\n' :: rest, rfl, rfl, .inl rfl, by simp⟩
        | succ line =>
            obtain ⟨left, right, rfl, feeds, start, stop⟩ := inductionHypothesis found
            refine ⟨'\n' :: left, right, rfl, ?_, .inr ?_, stop⟩
            · rw [List.count_cons_self, feeds]
            · rcases start with rfl | ⟨kept, rfl⟩
              · exact ⟨[], rfl⟩
              · exact ⟨'\n' :: kept, rfl⟩
      · obtain ⟨first, more, restPieces, pieces⟩ := exists_splitLines_cons newline rest
        rw [pieces] at found
        cases line with
        | zero =>
            obtain rfl := Option.some.inj found
            have restFound : (splitLines rest)[0]? = some first := by
              rw [restPieces]
              rfl
            obtain ⟨left, right, rfl, feeds, start, stop⟩ := inductionHypothesis restFound
            -- A first line has no line feed in front of it.
            rcases start with rfl | ⟨kept, rfl⟩
            · exact ⟨[], right, rfl, rfl, .inl rfl, stop⟩
            · simp at feeds
        | succ line =>
            have restFound : (splitLines rest)[line + 1]? = some text := by
              rw [restPieces]
              exact found
            obtain ⟨left, right, rfl, feeds, start, stop⟩ := inductionHypothesis restFound
            refine ⟨c :: left, right, rfl, ?_, .inr ?_, stop⟩
            · rw [List.count_cons_of_ne newline, feeds]
            · rcases start with rfl | ⟨kept, rfl⟩
              · cases feeds
              · exact ⟨c :: kept, rfl⟩

/-- A column on a line that is there is moved back to the end of the line at most. -/
theorem exists_offsetOf_of_line
    {line : Nat} {text : List Char} (found : (splitLines cs)[line]? = some text) (column : Nat) :
    ∃ left right,
      cs = left ++ (text ++ right) ∧ left.count '\n' = line ∧ lastLine left = [] ∧
        offsetOf cs line column = byteLength left + min column (byteLength text) := by
  have unbroken := not_mem_of_mem_splitLines (List.mem_of_getElem? found)
  obtain ⟨left, right, rfl, rfl, start, stop⟩ := exists_of_getElem?_splitLines found
  have empty : lastLine left = [] := by
    rcases start with rfl | ⟨kept, rfl⟩
    · rfl
    · simp [lastLine, afterLast]
  have total := byteLength_eq_lastLineStart_add left
  rw [empty, byteLength, Nat.add_zero] at total
  have passed := decide_ne_of_not_mem unbroken
  have toEnd :
      bytesToLineEnd (left ++ (text ++ right)) (byteLength left) = byteLength text := by
    rw [bytesToLineEnd, fitting_byteLength_append, List.drop_left,
      List.takeWhile_append_of_pos passed, stop, List.append_nil]
  refine ⟨left, right, rfl, rfl, empty, ?_⟩
  rw [offsetOf, lineStart_count, ← total, toEnd, ← Nat.add_min_add_left]

/-- The position of a line and a column is on that line, after the characters that lie within the
bytes up to the column. -/
theorem positionAt_offsetOf_of_line
    {line : Nat} {text : List Char} (found : (splitLines cs)[line]? = some text) (column : Nat) :
    positionAt cs (offsetOf cs line column) =
      ⟨clamp32 line, clamp32 (fitting (min column (byteLength text)) text).length⟩ := by
  have unbroken := not_mem_of_mem_splitLines (List.mem_of_getElem? found)
  obtain ⟨left, right, rfl, rfl, empty, reached⟩ := exists_offsetOf_of_line found column
  have before :
      fitting (byteLength left + min column (byteLength text)) (left ++ (text ++ right)) =
        left ++ fitting (min column (byteLength text)) text := by
    rw [fitting_add, fitting_append_of_le (Nat.min_le_right _ _)]
  have front := fitting_prefix (min column (byteLength text)) text
  have wholeUnbroken : '\n' ∉ fitting (min column (byteLength text)) text := fun member =>
    unbroken (front.subset member)
  rw [reached, positionAt, before, List.count_append, List.count_eq_zero_of_not_mem wholeUnbroken,
    lastLine_append_of_not_mem wholeUnbroken, empty]
  rfl

theorem lineStart_of_count_lt {line : Nat} (beyond : cs.count '\n' < line) :
    lineStart line cs = byteLength cs := by
  induction cs generalizing line with
  | nil =>
      cases line with
      | zero => cases beyond
      | succ line => rfl
  | cons c rest inductionHypothesis =>
      cases line with
      | zero => cases beyond
      | succ line =>
          rw [lineStart, byteLength]
          by_cases newline : c = '\n'
          · subst c
            rw [List.count_cons_self] at beyond
            rw [if_pos rfl, inductionHypothesis (Nat.lt_of_succ_lt_succ beyond)]
          · rw [List.count_cons_of_ne newline] at beyond
            rw [if_neg newline, inductionHypothesis beyond]

theorem fitting_of_le (long : byteLength cs ≤ offset) : fitting offset cs = cs := by
  have front := fitting_prefix offset cs
  have all := prefix_fitting List.prefix_rfl long
  exact front.eq_of_length_le all.length_le

/-- A line that is not there stands for the end of the text. -/
theorem offsetOf_of_no_line
    {line : Nat} (missing : (splitLines cs)[line]? = none) (column : Nat) :
    offsetOf cs line column = byteLength cs := by
  have beyond : cs.count '\n' < line := by
    rw [List.getElem?_eq_none_iff, length_splitLines] at missing
    exact missing
  have nothingLeft : bytesToLineEnd cs (byteLength cs) = 0 := by
    rw [bytesToLineEnd, fitting_of_le (Nat.le_refl _), List.drop_length]
    rfl
  rw [offsetOf, lineStart_of_count_lt beyond, nothingLeft]
  exact Nat.min_eq_right (Nat.le_add_right _ _)

/-! ## Machine words -/

theorem lineStart_le (line : Nat) (cs : List Char) : lineStart line cs ≤ byteLength cs := by
  obtain ⟨left, right, cut⟩ := exists_cut?_lineStart line cs
  obtain ⟨whole, total⟩ := cut?_eq_some_iff.mp cut
  rw [← total, whole, byteLength_append]
  exact Nat.le_add_right _ _

/-- As long as the sum fits, it does not matter that the column is added as a machine word. -/
theorem offsetInWords?_eq
    {line column : Nat} (fits : lineStart line cs + column < UInt64.size) (overflow : Overflow) :
    offsetInWords? overflow cs line column = some (offsetOf cs line column) := by
  simp only [offsetInWords?, Overflow.sum?, if_pos fits, Option.map_some]
  rfl

/-- The columns that occur in a text are no problem if twice its length fits into a word. -/
theorem offsetInWords?_of_short
    {line column : Nat}
    (short : 2 * byteLength cs < UInt64.size) (within : column ≤ byteLength cs)
    (overflow : Overflow) :
    offsetInWords? overflow cs line column = some (offsetOf cs line column) := by
  have start := lineStart_le line cs
  exact offsetInWords?_eq (by omega) overflow

/-! ## From offsets to positions -/

theorem positionAt_of_ge (long : byteLength cs ≤ offset) :
    positionAt cs offset = placeAfter cs := by
  rw [positionAt, fitting_of_le long]
  rfl

/-- All offsets inside a character have the position of its start. -/
theorem positionAt_of_inside
    {left : List Char} {c : Char}
    (begun : byteLength left ≤ offset) (unfinished : offset < byteLength left + c.utf8Size)
    (right : List Char) :
    positionAt (left ++ c :: right) offset =
      positionAt (left ++ c :: right) (byteLength left) := by
  rw [positionAt, positionAt, fitting_of_lt begun unfinished, fitting_byteLength_append]

/-- Lines and characters of the text can be counted in 32 bits. -/
structure IsShort (cs : List Char) : Prop where
  lines : (splitLines cs).length < UInt32.size
  characters : ∀ text ∈ splitLines cs, text.length < UInt32.size

/-- In a short text the position of a place is its line and the length of what stands in front of it
on that line. -/
theorem IsShort.toNat_placeAfter
    {left : List Char} (short : IsShort cs) (front : left <+: cs) :
    (placeAfter left).line.toNat = left.count '\n' ∧
      (placeAfter left).character.toNat = (lastLine left).length := by
  obtain ⟨text, found, inLine⟩ := exists_line_of_prefix front
  obtain ⟨known, rfl⟩ := List.getElem?_eq_some_iff.mp found
  have lines := short.lines
  have characters := short.characters _ (List.getElem_mem known)
  have shorter := inLine.length_le
  simp only [placeAfter, toNat_clamp32]
  constructor
  · omega
  · rw [lastLine]
    omega

/-- In a short text a later place has a greater position. -/
theorem IsShort.compare_placeAfter
    {left more : List Char} (short : IsShort cs) (front : left ++ more <+: cs)
    (later : more ≠ []) :
    compare (placeAfter left) (placeAfter (left ++ more)) = .lt := by
  obtain ⟨line, character⟩ :=
    short.toNat_placeAfter ((List.prefix_append left more).trans front)
  obtain ⟨laterLine, laterCharacter⟩ := short.toNat_placeAfter front
  rw [List.count_append] at laterLine
  rw [Position.compare_eq_lt]
  by_cases broken : '\n' ∈ more
  · have feeds : 0 < more.count '\n' := List.count_pos_iff.mpr broken
    refine .inl (UInt32.lt_iff_toNat_lt.mpr ?_)
    omega
  · have length : 0 < more.length := List.length_pos_iff.mpr later
    rw [List.count_eq_zero_of_not_mem broken] at laterLine
    rw [lastLine_append_of_not_mem broken, List.length_append] at laterCharacter
    refine .inr ⟨UInt32.toNat_inj.mp ?_, UInt32.lt_iff_toNat_lt.mpr ?_⟩
    · omega
    · omega

theorem IsShort.isLE_compare_positionAt
    {other : Nat} (short : IsShort cs) (ordered : offset ≤ other) :
    (compare (positionAt cs offset) (positionAt cs other)).isLE = true := by
  have front := fitting_prefix offset cs
  have fits := Nat.le_trans (byteLength_fitting_le offset cs) ordered
  have otherFront := fitting_prefix other cs
  obtain ⟨more, whole⟩ := prefix_fitting front fits
  have here : positionAt cs offset = placeAfter (fitting offset cs) := rfl
  have there : positionAt cs other = placeAfter (fitting offset cs ++ more) := by
    rw [whole]
    rfl
  rw [← whole] at otherFront
  rw [here, there]
  by_cases none : more = []
  · rw [none, List.append_nil, Position.compare_self]
    rfl
  · rw [short.compare_placeAfter otherFront none]
    rfl

/-- In a short text no two boundaries have one position. -/
theorem IsShort.eq_of_positionAt_eq
    {other : Nat} (short : IsShort cs) (start : IsBoundary cs offset)
    (otherStart : IsBoundary cs other) (same : positionAt cs offset = positionAt cs other) :
    offset = other := by
  obtain ⟨left, right, whole, rfl⟩ := start
  obtain ⟨otherLeft, otherRight, otherWhole, rfl⟩ := otherStart
  have here : positionAt cs (byteLength left) = placeAfter left := by
    rw [whole, positionAt_byteLength]
  have there : positionAt cs (byteLength otherLeft) = placeAfter otherLeft := by
    rw [otherWhole, positionAt_byteLength]
  rw [here, there] at same
  -- One of the two parts is a prefix of the other, and a longer one has a greater position.
  have noneLater (part more : List Char) (front : part ++ more <+: cs)
      (equal : placeAfter (part ++ more) = placeAfter part) : more = [] := by
    by_contra later
    have less := short.compare_placeAfter front later
    rw [equal, Position.compare_self] at less
    cases less
  have front : left <+: cs := ⟨right, whole.symm⟩
  have otherFront : otherLeft <+: cs := ⟨otherRight, otherWhole.symm⟩
  rcases List.prefix_or_prefix_of_prefix front otherFront with ⟨more, rfl⟩ | ⟨more, rfl⟩
  · rw [noneLater left more otherFront same.symm, List.append_nil]
  · rw [noneLater otherLeft more front same, List.append_nil]

/-! ## All together -/

/-- For every text, and whatever becomes of sums that do not fit into a machine word. The line and
the byte column of each offset, also of one inside a character, lead back to it. A line and a column
whose sum with the start of the line fits into a word lead to a position on that line, after the
characters that lie wholly within the bytes up to the column or, if that is too far, to the end of
the line; if there is no such line, they lead to the end of the text. All offsets past the end have
one position, and so have all offsets inside one character; and if lines and characters can be
counted in 32 bits, positions are ordered as offsets are, and no two boundaries have the same. -/
theorem offsets_and_positions (overflow : Overflow) (cs : List Char) :
    (∀ offset ≤ byteLength cs,
        offsetOf cs (lineAt cs offset) (columnAt cs offset) = offset ∧
          (offset < UInt64.size →
            offsetInWords? overflow cs (lineAt cs offset) (columnAt cs offset) = some offset)) ∧
      (∀ line column, lineStart line cs + column < UInt64.size →
        ∃ offset,
          offsetInWords? overflow cs line column = some offset ∧
            offset = offsetOf cs line column ∧
            (∀ text, (splitLines cs)[line]? = some text →
              ∃ count,
                CountsWhole text (min column (byteLength text)) count ∧
                  positionAt cs offset = ⟨clamp32 line, clamp32 count⟩) ∧
              ((splitLines cs)[line]? = none → positionAt cs offset = placeAfter cs)) ∧
        (∀ offset, byteLength cs ≤ offset → positionAt cs offset = placeAfter cs) ∧
          (∀ left c right, cs = left ++ c :: right →
            ∀ offset, byteLength left ≤ offset → offset < byteLength left + c.utf8Size →
              positionAt cs offset = positionAt cs (byteLength left)) ∧
            (IsShort cs →
              (∀ offset other, offset ≤ other →
                (compare (positionAt cs offset) (positionAt cs other)).isLE = true) ∧
                ∀ offset other, IsBoundary cs offset → IsBoundary cs other →
                  positionAt cs offset = positionAt cs other → offset = other) := by
  refine ⟨fun offset reached => ⟨offsetOf_lineAt_columnAt reached, fun fits => ?_⟩,
    fun line column fits => ⟨_, offsetInWords?_eq fits overflow, rfl, ?_, ?_⟩,
    fun _ => positionAt_of_ge, ?_, fun short => ⟨?_, ?_⟩⟩
  · have sum : lineStart (lineAt cs offset) cs + columnAt cs offset = offset :=
      lineStart_add_columnAt reached
    rw [offsetInWords?_eq (by omega), offsetOf_lineAt_columnAt reached]
  · intro text found
    exact ⟨_, countsWhole_fitting text _, positionAt_offsetOf_of_line found column⟩
  · intro missing
    rw [offsetOf_of_no_line missing, positionAt_of_ge (Nat.le_refl _)]
  · rintro left c right rfl offset begun unfinished
    exact positionAt_of_inside begun unfinished right
  · exact fun _ _ => short.isLE_compare_positionAt
  · exact fun _ _ => short.eq_of_positionAt_eq

/-- A character of two bytes, and a second line. -/
def accented : List Char := ['é', ':', '\n', ' ', ' ', 'x']

/-- The second byte is on the first line, at column one, and has the position of the first byte; the
next character has another. A column that is too far leads to the end of its line. -/
theorem offsets_and_positions_accented :
    IsShort accented ∧
      (lineAt accented 1 = 0 ∧ columnAt accented 1 = 1 ∧
        offsetInWords? .stops accented 0 1 = some 1) ∧
        positionAt accented 1 = positionAt accented 0 ∧
          positionAt accented 0 ≠ positionAt accented 2 ∧
            ∃ offset,
              offsetInWords? .stops accented 1 99 = some offset ∧
                positionAt accented offset = ⟨1, 3⟩ := by
  have short : IsShort accented := ⟨by decide, by decide⟩
  obtain ⟨leadBack, onLine, _, inside, ordered⟩ := offsets_and_positions .stops accented
  refine ⟨short, ⟨by decide +kernel, by decide +kernel, (leadBack 1 (by decide)).2 (by decide)⟩,
    ?_, ?_, ?_⟩
  · exact inside [] 'é' _ rfl 1 (by decide) (by decide)
  · intro same
    have startsHere : IsBoundary accented 0 := ⟨[], accented, rfl, rfl⟩
    have startsThere : IsBoundary accented 2 := ⟨['é'], _, rfl, rfl⟩
    exact absurd ((ordered short).2 0 2 startsHere startsThere same) (by decide)
  · obtain ⟨offset, found, _, reached, _⟩ := onLine 1 99 (by decide)
    obtain ⟨count, counts, placed⟩ := reached [' ', ' ', 'x'] (by decide)
    have all : count = 3 :=
      Nat.le_antisymm counts.known (counts.most 3 (by decide) (by decide))
    rw [all] at placed
    exact ⟨offset, found, placed⟩

/-- Two lines, the second of which starts at the third byte. -/
def twoLetters : List Char := ['a', '\n', 'b']

/-- The greatest column of 64 bits on the second line leads nowhere if the program stops, and to the
first line if it goes on, whatever number of characters is looked for. -/
theorem greatest_column_leaves_its_line :
    (splitLines twoLetters)[1]? = some ['b'] ∧
      offsetInWords? .stops twoLetters 1 (UInt64.size - 1) = none ∧
        offsetInWords? .wraps twoLetters 1 (UInt64.size - 1) = some 1 ∧
          ∀ overflow,
            ¬ ∃ offset count,
              offsetInWords? overflow twoLetters 1 (UInt64.size - 1) = some offset ∧
                CountsWhole ['b'] (min (UInt64.size - 1) (byteLength ['b'])) count ∧
                  positionAt twoLetters offset = ⟨clamp32 1, clamp32 count⟩ := by
  have stopped : offsetInWords? .stops twoLetters 1 (UInt64.size - 1) = none := by decide +kernel
  have wrapped : offsetInWords? .wraps twoLetters 1 (UInt64.size - 1) = some 1 := by
    decide +kernel
  refine ⟨by decide, stopped, wrapped, ?_⟩
  rintro overflow ⟨offset, count, found, _, placed⟩
  cases overflow with
  | stops =>
      rw [stopped] at found
      cases found
  | wraps =>
      rw [wrapped] at found
      obtain rfl := Option.some.inj found
      have line : (positionAt twoLetters 1).line = clamp32 1 := congrArg Position.line placed
      exact absurd line (by decide)

end Text

end Heredoc
