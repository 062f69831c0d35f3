import Heredoc.Proofs.Text.Lines
import Heredoc.Text.Offset
import Mathlib.Data.List.Infix

/-!
# Cutting text at byte offsets

A text can be cut at a byte offset only where a character starts or the text ends. Offsets and
positions are computed here by cuts that may fail, and by looking at single bytes; main statements:
no cut fails (`offsetOf?_eq`, `positionAt?_eq`), and a byte below 128 is a character of its own
(`byte_eq_iff`), so that a cut in front of one never fails either.
-/

namespace Heredoc.Text

/-- The two parts of a text in front of and after a byte offset, if it is not inside a character and
not past the end. -/
def cut? : Nat → List Char → Option (List Char × List Char)
  | 0, cs => some ([], cs)
  | _ + 1, [] => none
  | offset + 1, c :: rest =>
      if c.utf8Size ≤ offset + 1 then
        (cut? (offset + 1 - c.utf8Size) rest).map fun parts => (c :: parts.1, parts.2)
      else none

theorem byteLength_append (left right : List Char) :
    byteLength (left ++ right) = byteLength left + byteLength right := by
  induction left with
  | nil => rw [List.nil_append, byteLength, Nat.zero_add]
  | cons c rest inductionHypothesis =>
      rw [List.cons_append, byteLength, byteLength, inductionHypothesis, Nat.add_assoc]

theorem cut?_byteLength (left right : List Char) :
    cut? (byteLength left) (left ++ right) = some (left, right) := by
  induction left with
  | nil =>
      rw [byteLength, List.nil_append]
      cases right <;> rfl
  | cons c rest inductionHypothesis =>
      have positive := c.utf8Size_pos
      obtain ⟨offset, total⟩ : ∃ offset, c.utf8Size + byteLength rest = offset + 1 :=
        ⟨c.utf8Size + byteLength rest - 1, by omega⟩
      have fits : c.utf8Size ≤ offset + 1 := by omega
      have remaining : offset + 1 - c.utf8Size = byteLength rest := by omega
      rw [byteLength, total, List.cons_append, cut?, if_pos fits, remaining, inductionHypothesis]
      rfl

theorem cut?_eq_some_iff
    {offset : Nat} {cs left right : List Char} :
    cut? offset cs = some (left, right) ↔ cs = left ++ right ∧ byteLength left = offset := by
  constructor
  · intro cut
    induction cs generalizing offset left with
    | nil =>
        cases offset with
        | zero =>
            cases cut
            exact ⟨rfl, rfl⟩
        | succ offset => cases cut
    | cons c rest inductionHypothesis =>
        cases offset with
        | zero =>
            cases cut
            exact ⟨rfl, rfl⟩
        | succ offset =>
            rw [cut?] at cut
            by_cases fits : c.utf8Size ≤ offset + 1
            · rw [if_pos fits] at cut
              obtain ⟨⟨restLeft, restRight⟩, restCut, same⟩ := Option.map_eq_some_iff.mp cut
              obtain ⟨rfl, rfl⟩ := Prod.mk.inj same
              obtain ⟨whole, total⟩ := inductionHypothesis restCut
              refine ⟨by rw [whole, List.cons_append], ?_⟩
              rw [byteLength, total]
              omega
            · rw [if_neg fits] at cut
              cases cut
  · rintro ⟨rfl, rfl⟩
    exact cut?_byteLength left right

theorem cut?_add
    {offset more : Nat} {cs left right others rest : List Char}
    (cut : cut? offset cs = some (left, right)) (next : cut? more right = some (others, rest)) :
    cut? (offset + more) cs = some (left ++ others, rest) := by
  obtain ⟨rfl, rfl⟩ := cut?_eq_some_iff.mp cut
  obtain ⟨rfl, rfl⟩ := cut?_eq_some_iff.mp next
  exact cut?_eq_some_iff.mpr ⟨(List.append_assoc _ _ _).symm, byteLength_append _ _⟩

/-! ## Characters that fit -/

theorem fitting_prefix (budget : Nat) (cs : List Char) : fitting budget cs <+: cs := by
  induction cs generalizing budget with
  | nil => exact List.prefix_rfl
  | cons c rest inductionHypothesis =>
      rw [fitting]
      by_cases fits : c.utf8Size ≤ budget
      · rw [if_pos fits]
        exact (List.prefix_cons_inj c).mpr (inductionHypothesis _)
      · rw [if_neg fits]
        exact List.nil_prefix

theorem byteLength_fitting_le (budget : Nat) (cs : List Char) :
    byteLength (fitting budget cs) ≤ budget := by
  induction cs generalizing budget with
  | nil => exact Nat.zero_le budget
  | cons c rest inductionHypothesis =>
      rw [fitting]
      by_cases fits : c.utf8Size ≤ budget
      · have restFits := inductionHypothesis (budget - c.utf8Size)
        rw [if_pos fits, byteLength]
        omega
      · rw [if_neg fits]
        exact Nat.zero_le budget

/-- No other run of leading characters that fits is longer. -/
theorem prefix_fitting
    {left cs : List Char} {budget : Nat}
    (front : left <+: cs) (fits : byteLength left ≤ budget) :
    left <+: fitting budget cs := by
  induction cs generalizing left budget with
  | nil =>
      rw [List.prefix_nil.mp front]
      exact List.nil_prefix
  | cons c rest inductionHypothesis =>
      cases left with
      | nil => exact List.nil_prefix
      | cons d more =>
          obtain ⟨rfl, moreFront⟩ := List.cons_prefix_cons.mp front
          rw [byteLength] at fits
          have first : d.utf8Size ≤ budget := by omega
          rw [fitting, if_pos first]
          exact (List.prefix_cons_inj d).mpr (inductionHypothesis moreFront (by omega))

theorem fitting_byteLength_append (left right : List Char) :
    fitting (byteLength left) (left ++ right) = left := by
  have longer := prefix_fitting (List.prefix_append left right) (Nat.le_refl _)
  obtain ⟨extra, whole⟩ := longer
  have total := byteLength_fitting_le (byteLength left) (left ++ right)
  rw [← whole, byteLength_append] at total
  cases extra with
  | nil => rw [← whole, List.append_nil]
  | cons c more =>
      have positive := c.utf8Size_pos
      rw [byteLength] at total
      omega

theorem fitting_of_lt
    {c : Char} {left : List Char} {budget : Nat}
    (fits : byteLength left ≤ budget) (short : budget < byteLength left + c.utf8Size)
    (right : List Char) :
    fitting budget (left ++ c :: right) = left := by
  induction left generalizing budget with
  | nil =>
      rw [byteLength] at short
      rw [List.nil_append, fitting, if_neg (by omega)]
  | cons d left inductionHypothesis =>
      rw [byteLength] at fits short
      rw [List.cons_append, fitting, if_pos (by omega),
        inductionHypothesis (by omega) (by omega)]

theorem eq_of_byteLength_eq
    {left other right rest : List Char}
    (same : left ++ right = other ++ rest) (size : byteLength left = byteLength other) :
    left = other := by
  rw [← fitting_byteLength_append left right, same, size, fitting_byteLength_append]

/-! ## The last place to cut at or before an offset -/

/-- Goes back from an offset to one where the text can be cut. -/
def floorBoundary (cs : List Char) : Nat → Nat
  | 0 => 0
  | offset + 1 => if (cut? (offset + 1) cs).isSome then offset + 1 else floorBoundary cs offset

theorem floorBoundary_eq
    {cs : List Char} {boundary offset : Nat}
    (isBoundary : (cut? boundary cs).isSome = true) (reached : boundary ≤ offset)
    (last : ∀ other ≤ offset, (cut? other cs).isSome = true → other ≤ boundary) :
    floorBoundary cs offset = boundary := by
  induction offset with
  | zero => exact (Nat.le_zero.mp reached).symm
  | succ offset inductionHypothesis =>
      rw [floorBoundary]
      by_cases here : (cut? (offset + 1) cs).isSome = true
      · rw [if_pos here]
        have := last (offset + 1) (Nat.le_refl _) here
        omega
      · rw [if_neg here]
        have before : boundary ≠ offset + 1 := by
          rintro rfl
          exact here isBoundary
        exact inductionHypothesis (by omega) fun other below =>
          last other (Nat.le_succ_of_le below)

theorem floorBoundary_min (cs : List Char) (offset : Nat) :
    floorBoundary cs (min offset (byteLength cs)) = byteLength (fitting offset cs) := by
  obtain ⟨after, whole⟩ := fitting_prefix offset cs
  have fits := byteLength_fitting_le offset cs
  have total : byteLength (fitting offset cs) ≤ byteLength cs := by
    have sum := byteLength_append (fitting offset cs) after
    rw [whole] at sum
    omega
  refine floorBoundary_eq ?_ (Nat.le_min.mpr ⟨fits, total⟩) ?_
  · have cut := cut?_byteLength (fitting offset cs) after
    rw [whole] at cut
    rw [cut]
    rfl
  · -- What stands in front of any other place to cut fits too, so it is no longer.
    intro other below isBoundary
    obtain ⟨⟨left, right⟩, cut⟩ := Option.isSome_iff_exists.mp isBoundary
    obtain ⟨rfl, rfl⟩ := cut?_eq_some_iff.mp cut
    have leftFits : byteLength left ≤ offset := Nat.le_trans below (Nat.min_le_left _ _)
    obtain ⟨extra, longer⟩ := prefix_fitting (List.prefix_append left right) leftFits
    rw [← longer, byteLength_append]
    omega

/-! ## Offsets and positions by cuts -/

/-- The byte offset of a line and a byte column, computed by a cut at the start of the line. -/
def offsetOf? (cs : List Char) (line column : Nat) : Option Nat := do
  let start := lineStart line cs
  let (_, rest) ← cut? start cs
  return min (start + column) (start + byteLength (rest.takeWhile (· ≠ '\n')))

/-- The byte offset right after the last line feed. -/
def lastLineStart (cs : List Char) : Nat :=
  match beforeLast? '\n' cs with
  | some kept => byteLength kept + 1
  | none => 0

/-- The position of a byte offset, computed by a cut at the last place before it and a cut at the
start of its line. -/
def positionAt? (cs : List Char) (offset : Nat) : Option Position := do
  let (before, _) ← cut? (floorBoundary cs (min offset (byteLength cs))) cs
  let (_, last) ← cut? (lastLineStart before) before
  return ⟨clamp32 (before.count '\n'), clamp32 last.length⟩

theorem exists_cut?_lineStart (line : Nat) (cs : List Char) :
    ∃ left right, cut? (lineStart line cs) cs = some (left, right) := by
  induction cs generalizing line with
  | nil =>
      refine ⟨[], [], ?_⟩
      cases line <;> rfl
  | cons c rest inductionHypothesis =>
      cases line with
      | zero => exact ⟨[], c :: rest, rfl⟩
      | succ line =>
          obtain ⟨left, right, cut⟩ :=
            inductionHypothesis (if c = '\n' then line else line + 1)
          obtain ⟨whole, total⟩ := cut?_eq_some_iff.mp cut
          refine ⟨c :: left, right, cut?_eq_some_iff.mpr ⟨?_, ?_⟩⟩
          · rw [whole, List.cons_append]
          · rw [byteLength, lineStart, total]

theorem offsetOf?_eq (cs : List Char) (line column : Nat) :
    offsetOf? cs line column = some (offsetOf cs line column) := by
  obtain ⟨left, right, cut⟩ := exists_cut?_lineStart line cs
  obtain ⟨whole, total⟩ := cut?_eq_some_iff.mp cut
  have toEnd :
      bytesToLineEnd cs (lineStart line cs) = byteLength (right.takeWhile (· ≠ '\n')) := by
    rw [bytesToLineEnd, ← total, whole, fitting_byteLength_append, List.drop_left]
  rw [offsetOf?, cut, offsetOf, toEnd]
  rfl

theorem exists_cut?_lastLineStart (cs : List Char) :
    ∃ left, cut? (lastLineStart cs) cs = some (left, lastLine cs) := by
  rw [lastLineStart, lastLine]
  cases last : beforeLast? '\n' cs with
  | none =>
      rw [afterLast_of_beforeLast?_eq_none last]
      exact ⟨[], cut?_eq_some_iff.mpr ⟨rfl, rfl⟩⟩
  | some kept =>
      refine ⟨kept ++ ['\n'], cut?_eq_some_iff.mpr ⟨?_, ?_⟩⟩
      · rw [List.append_assoc, List.singleton_append]
        exact eq_append_of_beforeLast? last
      · rw [byteLength_append]
        rfl

theorem positionAt?_eq (cs : List Char) (offset : Nat) :
    positionAt? cs offset = some (positionAt cs offset) := by
  obtain ⟨after, whole⟩ := fitting_prefix offset cs
  have cut :
      cut? (floorBoundary cs (min offset (byteLength cs))) cs =
        some (fitting offset cs, after) := by
    rw [floorBoundary_min]
    exact cut?_eq_some_iff.mpr ⟨whole.symm, rfl⟩
  obtain ⟨left, lineCut⟩ := exists_cut?_lastLineStart (fitting offset cs)
  simp only [positionAt?, cut, Option.bind_eq_bind, Option.bind_some, lineCut]
  rfl

/-! ## Single bytes -/

def bytes (cs : List Char) : List UInt8 :=
  cs.flatMap String.utf8EncodeChar

theorem length_bytes (cs : List Char) : (bytes cs).length = byteLength cs := by
  induction cs with
  | nil => rfl
  | cons c rest inductionHypothesis =>
      rw [bytes, List.flatMap_cons, List.length_append, String.length_utf8EncodeChar, byteLength,
        ← inductionHypothesis, bytes]

theorem bytes_append (left right : List Char) :
    bytes (left ++ right) = bytes left ++ bytes right :=
  List.flatMap_append

theorem getElem?_bytes_append (left right : List Char) (index : Nat) :
    (bytes (left ++ right))[byteLength left + index]? = (bytes right)[index]? := by
  rw [bytes_append, ← length_bytes, List.getElem?_append_right (Nat.le_add_right _ _),
    Nat.add_sub_cancel_left]

/-- The bytes of a text start the bytes of another only if its characters do. -/
theorem bytes_prefix_iff {left cs : List Char} : bytes left <+: bytes cs ↔ left <+: cs := by
  constructor
  · rintro ⟨rest, whole⟩
    apply List.isPrefix_of_utf8Encode_append_eq_utf8Encode rest.toByteArray
    rw [List.utf8Encode, List.utf8Encode, ← List.toByteArray_append]
    exact congrArg List.toByteArray whole
  · rintro ⟨rest, rfl⟩
    exact ⟨bytes rest, (bytes_append left rest).symm⟩

theorem bytes_inj {cs other : List Char} : bytes cs = bytes other ↔ cs = other := by
  constructor
  · intro same
    have front : cs <+: other := bytes_prefix_iff.mp (same ▸ List.prefix_rfl)
    have otherFront : other <+: cs := bytes_prefix_iff.mp (same ▸ List.prefix_rfl)
    exact front.eq_of_length (Nat.le_antisymm front.length_le otherFront.length_le)
  · rintro rfl
    rfl

theorem byteLength_toList (text : String) : byteLength text.toList = text.utf8ByteSize := by
  rw [← length_bytes, ← String.size_toByteArray, ← String.utf8Encode_toList]
  simp [bytes, List.utf8Encode]

/-- The byte of a character below 128. -/
def byte (c : Char) : UInt8 :=
  UInt8.ofNat c.toNat

theorem toNat_byte {c : Char} (ascii : c.toNat < 128) : (byte c).toNat = c.toNat := by
  rw [byte, UInt8.toNat_ofNat', Nat.mod_eq_of_lt (by omega)]

theorem byte_inj {c other : Char} (ascii : c.toNat < 128) (otherAscii : other.toNat < 128) :
    byte c = byte other ↔ c = other := by
  constructor
  · intro same
    have sameNumber := congrArg UInt8.toNat same
    rw [toNat_byte ascii, toNat_byte otherAscii] at sameNumber
    exact Char.toNat_inj.mp sameNumber
  · rintro rfl
    rfl

theorem utf8EncodeChar_of_lt {c : Char} (ascii : c.toNat < 128) :
    String.utf8EncodeChar c = [byte c] := by
  have small : c.val.toNat ≤ 127 := Nat.le_of_lt_succ ascii
  simp only [String.utf8EncodeChar, if_pos small]
  rfl

theorem bytes_cons_of_lt {c : Char} (ascii : c.toNat < 128) (rest : List Char) :
    bytes (c :: rest) = byte c :: bytes rest := by
  rw [bytes, List.flatMap_cons, utf8EncodeChar_of_lt ascii, List.singleton_append, bytes]

theorem le_toNat_of_mem_utf8EncodeChar
    {c : Char} {b : UInt8} (wide : 128 ≤ c.toNat) (member : b ∈ String.utf8EncodeChar c) :
    128 ≤ b.toNat := by
  have large : ¬ c.val.toNat ≤ 127 := Nat.not_le_of_lt wide
  simp only [String.utf8EncodeChar, if_neg large] at member
  -- Leading bytes are 192 and more, the others lie between 128 and 191.
  split at member
  · simp only [List.mem_cons, List.not_mem_nil, or_false] at member
    rcases member with rfl | rfl <;> rw [UInt8.toNat_ofNat'] <;> omega
  · split at member
    · simp only [List.mem_cons, List.not_mem_nil, or_false] at member
      rcases member with rfl | rfl | rfl <;> rw [UInt8.toNat_ofNat'] <;> omega
    · simp only [List.mem_cons, List.not_mem_nil, or_false] at member
      rcases member with rfl | rfl | rfl | rfl <;> rw [UInt8.toNat_ofNat'] <;> omega

theorem byte_mem_utf8EncodeChar
    {c mark : Char} (ascii : mark.toNat < 128) (member : byte mark ∈ String.utf8EncodeChar c) :
    c = mark := by
  rcases Nat.lt_or_ge c.toNat 128 with small | wide
  · rw [utf8EncodeChar_of_lt small, List.mem_singleton] at member
    exact ((byte_inj ascii small).mp member).symm
  · have high := le_toNat_of_mem_utf8EncodeChar wide member
    rw [toNat_byte ascii] at high
    omega

theorem charAt?_cons_of_le
    {c : Char} {offset : Nat} (reached : c.utf8Size ≤ offset) (rest : List Char) :
    charAt? offset (c :: rest) = charAt? (offset - c.utf8Size) rest := by
  have positive := c.utf8Size_pos
  obtain ⟨before, rfl⟩ : ∃ before, offset = before + 1 := ⟨offset - 1, by omega⟩
  rw [charAt?, if_pos reached]

theorem charAt?_eq_some
    {offset : Nat} {cs : List Char} {c : Char} (shown : charAt? offset cs = some c) :
    ∃ left right, cs = left ++ c :: right ∧ byteLength left = offset := by
  induction cs generalizing offset with
  | nil => cases shown
  | cons d rest inductionHypothesis =>
      cases offset with
      | zero =>
          obtain rfl : d = c := Option.some.inj shown
          exact ⟨[], rest, rfl, rfl⟩
      | succ offset =>
          rw [charAt?] at shown
          by_cases fits : d.utf8Size ≤ offset + 1
          · rw [if_pos fits] at shown
            obtain ⟨left, right, whole, total⟩ := inductionHypothesis shown
            refine ⟨d :: left, right, by rw [whole, List.cons_append], ?_⟩
            rw [byteLength, total]
            omega
          · rw [if_neg fits] at shown
            cases shown

/-- A byte below 128 is a character: the bytes of longer characters are all above. -/
theorem byte_eq_iff
    {offset : Nat} {cs : List Char} {mark : Char} (ascii : mark.toNat < 128) :
    (bytes cs)[offset]? = some (byte mark) ↔ charAt? offset cs = some mark := by
  induction cs generalizing offset with
  | nil =>
      constructor
      · intro shown
        cases shown
      · intro shown
        cases shown
  | cons c rest inductionHypothesis =>
      have size : (String.utf8EncodeChar c).length = c.utf8Size := String.length_utf8EncodeChar c
      have split : bytes (c :: rest) = String.utf8EncodeChar c ++ bytes rest := List.flatMap_cons
      rcases Nat.lt_or_ge offset c.utf8Size with inside | after
      · rw [split, List.getElem?_append_left (size ▸ inside)]
        constructor
        · intro shown
          obtain rfl := byte_mem_utf8EncodeChar ascii (List.mem_of_getElem? shown)
          have single : c.utf8Size = 1 := by
            rw [← size, utf8EncodeChar_of_lt ascii]
            rfl
          obtain rfl : offset = 0 := by omega
          rfl
        · intro shown
          cases offset with
          | zero =>
              obtain rfl : c = mark := Option.some.inj shown
              rw [utf8EncodeChar_of_lt ascii]
              rfl
          | succ offset =>
              rw [charAt?, if_neg (Nat.not_le_of_lt inside)] at shown
              cases shown
      · rw [split, List.getElem?_append_right (size ▸ after), size, charAt?_cons_of_le after]
        exact inductionHypothesis

theorem drop_bytes_of_cut?
    {offset : Nat} {cs left right : List Char} (cut : cut? offset cs = some (left, right)) :
    (bytes cs).drop offset = bytes right := by
  obtain ⟨rfl, rfl⟩ := cut?_eq_some_iff.mp cut
  rw [bytes_append, ← length_bytes, List.drop_left]

theorem byteLength_of_lt {cs : List Char} (ascii : ∀ c ∈ cs, c.toNat < 128) :
    byteLength cs = cs.length := by
  induction cs with
  | nil => rfl
  | cons c rest inductionHypothesis =>
      have size : c.utf8Size = 1 := by
        rw [← String.length_utf8EncodeChar, utf8EncodeChar_of_lt (ascii c List.mem_cons_self)]
        rfl
      rw [byteLength, size,
        inductionHypothesis fun c member => ascii c (List.mem_cons_of_mem _ member),
        List.length_cons, Nat.add_comm]

theorem head?_bytes_eq_iff {cs : List Char} {mark : Char} (ascii : mark.toNat < 128) :
    (bytes cs).head? = some (byte mark) ↔ cs.head? = some mark := by
  rw [List.head?_eq_getElem?, byte_eq_iff ascii]
  cases cs with
  | nil => rfl
  | cons c rest => rfl

theorem getLast?_bytes_eq_iff {cs : List Char} {mark : Char} (ascii : mark.toNat < 128) :
    (bytes cs).getLast? = some (byte mark) ↔ cs.getLast? = some mark := by
  rcases List.eq_nil_or_concat' cs with rfl | ⟨front, c, rfl⟩
  · constructor
    · intro shown
      cases shown
    · intro shown
      cases shown
  · have last : (bytes (front ++ [c])).getLast? = (String.utf8EncodeChar c).getLast? := by
      rw [bytes_append, show bytes [c] = String.utf8EncodeChar c from List.flatMap_singleton ..,
        List.getLast?_append_of_ne_nil _ String.utf8EncodeChar_ne_nil]
    rw [last, List.getLast?_concat]
    constructor
    · intro shown
      rw [byte_mem_utf8EncodeChar ascii (List.mem_of_getLast? shown)]
    · intro same
      obtain rfl := Option.some.inj same
      rw [utf8EncodeChar_of_lt ascii]
      rfl

theorem cut?_of_charAt?
    {offset : Nat} {cs : List Char} {c : Char} (shown : charAt? offset cs = some c) :
    ∃ right, cut? offset cs = some (fitting offset cs, c :: right) := by
  obtain ⟨left, right, rfl, rfl⟩ := charAt?_eq_some shown
  refine ⟨right, ?_⟩
  rw [fitting_byteLength_append]
  exact cut?_byteLength left (c :: right)

/-! ## Classes of bytes -/

/-- Whether a byte is a character of this class. -/
def byteIn (p : Char → Bool) (b : UInt8) : Bool :=
  b.toNat < 128 && p (Char.ofNat b.toNat)

theorem byteIn_byte {p : Char → Bool} {c : Char} (ascii : c.toNat < 128) :
    byteIn p (byte c) = p c := by
  rw [byteIn, toNat_byte ascii, Char.ofNat_toNat, decide_eq_true ascii, Bool.true_and]

theorem byteIn_of_ge {p : Char → Bool} {b : UInt8} (high : 128 ≤ b.toNat) :
    byteIn p b = false := by
  rw [byteIn, decide_eq_false (Nat.not_lt_of_ge high), Bool.false_and]

theorem exists_of_byteIn {p : Char → Bool} {b : UInt8} (inside : byteIn p b = true) :
    ∃ c : Char, c.toNat < 128 ∧ b = byte c := by
  rw [byteIn, Bool.and_eq_true, decide_eq_true_eq] at inside
  have valid : b.toNat.isValidChar := Or.inl (by omega)
  have number : (Char.ofNat b.toNat).toNat = b.toNat := by
    rw [Char.ofNat, dif_pos valid]
    rfl
  refine ⟨Char.ofNat b.toNat, ?_, ?_⟩
  · rw [number]
    exact inside.1
  · rw [byte, number, UInt8.ofNat_toNat]

section Classes

variable {p : Char → Bool} (ascii : ∀ c, p c = true → c.toNat < 128)
include ascii

/-- Of a character outside the class no byte is in it. -/
theorem byteIn_of_mem {c : Char} {b : UInt8} (member : b ∈ String.utf8EncodeChar c) :
    byteIn p b = p c := by
  rcases Nat.lt_or_ge c.toNat 128 with small | wide
  · rw [utf8EncodeChar_of_lt small, List.mem_singleton] at member
    rw [member, byteIn_byte small]
  · have outside : p c = false := by
      rw [← Bool.not_eq_true]
      intro inside
      have := ascii c inside
      omega
    rw [byteIn_of_ge (le_toNat_of_mem_utf8EncodeChar wide member), outside]

theorem all_byteIn (cs : List Char) : (bytes cs).all (byteIn p) = cs.all p := by
  rw [bytes, List.all_flatMap]
  refine List.all_congr rfl fun c => ?_
  have nonempty : String.utf8EncodeChar c ≠ [] := by
    rw [← List.length_pos_iff, String.length_utf8EncodeChar]
    exact c.utf8Size_pos
  rw [Bool.eq_iff_iff, List.all_eq_true]
  constructor
  · intro all
    obtain ⟨b, member⟩ := List.exists_mem_of_ne_nil _ nonempty
    rw [← byteIn_of_mem ascii member]
    exact all b member
  · intro inside b member
    rw [byteIn_of_mem ascii member, inside]

theorem length_takeWhile_byteIn (cs : List Char) :
    ((bytes cs).takeWhile (byteIn p)).length = (cs.takeWhile p).length := by
  induction cs with
  | nil => rfl
  | cons c rest inductionHypothesis =>
      have split : bytes (c :: rest) = String.utf8EncodeChar c ++ bytes rest :=
        List.flatMap_cons
      by_cases inside : p c = true
      · have small := ascii c inside
        rw [split, utf8EncodeChar_of_lt small, List.singleton_append,
          List.takeWhile_cons_of_pos (by rw [byteIn_byte small, inside]),
          List.takeWhile_cons_of_pos inside, List.length_cons, List.length_cons,
          inductionHypothesis]
      · cases encoded : String.utf8EncodeChar c with
        | nil =>
            have size := String.length_utf8EncodeChar c
            have positive := c.utf8Size_pos
            rw [encoded, List.length_nil] at size
            omega
        | cons b more =>
            have same := byteIn_of_mem ascii (encoded ▸ List.mem_cons_self)
            rw [split, encoded, List.cons_append,
              List.takeWhile_cons_of_neg (by rw [same]; exact inside),
              List.takeWhile_cons_of_neg inside, List.length_nil, List.length_nil]

end Classes

/-! ## The location text of a message -/

/-- The message without its location text, computed by a cut in front of that. -/
def stripLocation? (message : String) : Option String :=
  match before? " at line ".toList message.toList with
  | some kept =>
      (cut? (byteLength kept) message.toList).map fun parts => String.ofList parts.1
  | none => some message

theorem exists_append_of_before?
    {needle cs kept : List Char} (found : before? needle cs = some kept) :
    ∃ after, cs = kept ++ (needle ++ after) := by
  induction cs generalizing kept with
  | nil =>
      rw [before?] at found
      by_cases empty : needle.isEmpty = true
      · rw [if_pos empty] at found
        cases found
        exact ⟨[], by rw [List.isEmpty_iff.mp empty]; rfl⟩
      · rw [if_neg empty] at found
        cases found
  | cons c rest inductionHypothesis =>
      rw [before?] at found
      by_cases here : needle.isPrefixOf (c :: rest) = true
      · rw [if_pos here] at found
        cases found
        obtain ⟨after, whole⟩ := List.isPrefixOf_iff_prefix.mp here
        exact ⟨after, whole.symm⟩
      · rw [if_neg here] at found
        obtain ⟨restKept, restFound, rfl⟩ := Option.map_eq_some_iff.mp found
        obtain ⟨after, whole⟩ := inductionHypothesis restFound
        exact ⟨after, by rw [whole, List.cons_append]⟩

theorem before?_prefix
    {needle cs kept : List Char} (found : before? needle cs = some kept) :
    kept <+: cs := by
  obtain ⟨after, rfl⟩ := exists_append_of_before? found
  exact List.prefix_append _ _

/-- What follows an occurrence does not change which one is the first. -/
theorem before?_append
    {needle cs kept : List Char} (found : before? needle cs = some kept) (tail : List Char) :
    before? needle (cs ++ tail) = some kept := by
  induction cs generalizing kept with
  | nil =>
      rw [before?] at found
      by_cases empty : needle.isEmpty = true
      · rw [if_pos empty] at found
        cases found
        obtain rfl := List.isEmpty_iff.mp empty
        cases tail with
        | nil => rfl
        | cons c more => rfl
      · rw [if_neg empty] at found
        cases found
  | cons c rest inductionHypothesis =>
      rw [before?] at found
      rw [List.cons_append, before?]
      by_cases here : needle.isPrefixOf (c :: rest) = true
      · rw [if_pos here] at found
        have longer : needle <+: c :: (rest ++ tail) :=
          (List.isPrefixOf_iff_prefix.mp here).trans (List.prefix_append (c :: rest) tail)
        rw [if_pos (List.isPrefixOf_iff_prefix.mpr longer)]
        exact found
      · rw [if_neg here] at found
        obtain ⟨restKept, restFound, rfl⟩ := Option.map_eq_some_iff.mp found
        obtain ⟨after, whole⟩ := exists_append_of_before? restFound
        have fits : needle.length ≤ (c :: rest).length := by
          rw [whole, List.length_cons, List.length_append, List.length_append]
          omega
        have notHere : ¬ needle.isPrefixOf (c :: (rest ++ tail)) = true := by
          intro longer
          apply here
          apply List.isPrefixOf_iff_prefix.mpr
          exact List.prefix_of_prefix_length_le (List.isPrefixOf_iff_prefix.mp longer)
            (List.prefix_append (c :: rest) tail) fits
        rw [if_neg notHere, inductionHypothesis restFound]
        rfl

theorem stripLocation?_eq (message : String) :
    stripLocation? message = some (stripLocation message) := by
  rw [stripLocation?, stripLocation]
  cases found : before? " at line ".toList message.toList with
  | none => rfl
  | some kept =>
      obtain ⟨rest, whole⟩ := before?_prefix found
      have cut : cut? (byteLength kept) message.toList = some (kept, rest) :=
        cut?_eq_some_iff.mpr ⟨whole.symm, rfl⟩
      simp only [cut, Option.map_some]

end Heredoc.Text
