import Heredoc.Json.Print
import Heredoc.Json.Token
import Heredoc.Proofs.Text.Slices

/-!
# Written pieces of JSON and their tokens

What the tokens of a text are when its front is white space, a mark, a word or a quoted text, and
how pieces of text that are read as tokens of some shape are put together (`Lexes`). A character has
several spellings inside a quoted text (`Spells`); each of them is read as that character
(`readText_spelling`), and `escapeChar` writes one of them (`spells_escapeChar`).
-/

namespace Heredoc.Json

/-! ## Spellings of characters -/

/-- How a character may be spelled inside a quoted text. -/
inductive Spells : Char → List Char → Prop where
  | raw {c : Char}
      (printed : 0x20 ≤ c.toNat)
      (notQuote : c ≠ '"')
      (notBackslash : c ≠ '\\') :
      Spells c [c]
  | simple {mark c : Char}
      (meant : simpleEscape? mark = some c) :
      Spells c ['\\', mark]
  | unit {digits : List Char} {c : Char}
      (four : digits.length = 4)
      (meant : hexUnit? digits = some c.toNat) :
      Spells c ('\\' :: 'u' :: digits)
  | pair {high low : List Char} {first second : Nat}
      (fourHigh : high.length = 4)
      (meantHigh : hexUnit? high = some first)
      (isHigh : isHighSurrogate first = true)
      (fourLow : low.length = 4)
      (meantLow : hexUnit? low = some second)
      (isLow : isLowSurrogate second = true) :
      Spells (Char.ofNat (0x10000 + (first - 0xD800) * 0x400 + (second - 0xDC00)))
        ('\\' :: 'u' :: (high ++ '\\' :: 'u' :: low))

theorem toNat_lt_of_hexDigit? {c : Char} {value : Nat} (meant : hexDigit? c = some value) :
    c.toNat < 128 := by
  unfold hexDigit? at meant
  split at meant
  · rename_i digit
    exact Nat.lt_of_le_of_lt (Char.isDigit_iff_toNat.mp digit).2 (by decide)
  · split at meant
    · rename_i lower
      rw [Bool.and_eq_true, decide_eq_true_eq, decide_eq_true_eq] at lower
      exact Nat.lt_of_le_of_lt (UInt32.le_iff_toNat_le.mp lower.2) (by decide)
    · split at meant
      · rename_i upper
        rw [Bool.and_eq_true, decide_eq_true_eq, decide_eq_true_eq] at upper
        exact Nat.lt_of_le_of_lt (UInt32.le_iff_toNat_le.mp upper.2) (by decide)
      · cases meant

theorem byteLength_of_hexUnit?
    {digits : List Char} {unit : Nat}
    (four : digits.length = 4)
    (meant : hexUnit? digits = some unit) :
    Text.byteLength digits = 4 := by
  obtain ⟨a, b, c, d, rfl⟩ := List.length_eq_four.mp four
  rw [hexUnit?] at meant
  simp only [Option.bind_eq_bind, Option.bind_eq_some_iff] at meant
  obtain ⟨_, isA, _, isB, _, isC, _, isD, _⟩ := meant
  apply Text.byteLength_of_lt
  intro e member
  simp only [List.mem_cons, List.not_mem_nil, or_false] at member
  rcases member with rfl | rfl | rfl | rfl
  · exact toNat_lt_of_hexDigit? isA
  · exact toNat_lt_of_hexDigit? isB
  · exact toNat_lt_of_hexDigit? isC
  · exact toNat_lt_of_hexDigit? isD

theorem readUnit_append
    {digits : List Char} {unit : Nat}
    (four : digits.length = 4)
    (meant : hexUnit? digits = some unit)
    (index : Nat) (rest : List Char) :
    readUnit index (digits ++ rest) = .ok unit := by
  have bytes := byteLength_of_hexUnit? four meant
  obtain ⟨a, b, c, d, rfl⟩ := List.length_eq_four.mp four
  have front : ([a, b, c, d] ++ rest).take 4 = [a, b, c, d] := rfl
  have same : hexUnit? ([a, b, c, d] ++ rest) = some unit := meant
  rw [readUnit, front, bytes, if_neg (Nat.lt_irrefl 4), same]

theorem readEscapedChar_unit
    {digits : List Char} {c : Char}
    (four : digits.length = 4)
    (meant : hexUnit? digits = some c.toNat)
    (index : Nat) (rest : List Char) :
    readEscapedChar index (digits ++ rest) = .ok (c, 4) := by
  -- No character has the number of a surrogate.
  have scalar : c.toNat < 0xD800 ∨ 0xDFFF < c.toNat := by
    rcases c.valid with low | ⟨high, -⟩
    · exact .inl low
    · exact .inr high
  have notLow : isLowSurrogate c.toNat = false := by
    simp only [isLowSurrogate, Bool.and_eq_false_iff, decide_eq_false_iff_not]
    omega
  have notHigh : isHighSurrogate c.toNat = false := by
    simp only [isHighSurrogate, Bool.and_eq_false_iff, decide_eq_false_iff_not]
    omega
  rw [readEscapedChar, readUnit_append four meant]
  simp only [bind, Except.bind, notLow, notHigh, Bool.false_eq_true, if_false]
  rw [Char.ofNat_toNat]
  rfl

theorem readEscapedChar_pair
    {high low : List Char} {first second : Nat}
    (fourHigh : high.length = 4)
    (meantHigh : hexUnit? high = some first)
    (isHigh : isHighSurrogate first = true)
    (fourLow : low.length = 4)
    (meantLow : hexUnit? low = some second)
    (isLow : isLowSurrogate second = true)
    (index : Nat) (rest : List Char) :
    readEscapedChar index (high ++ '\\' :: 'u' :: low ++ rest) =
      .ok (Char.ofNat (0x10000 + (first - 0xD800) * 0x400 + (second - 0xDC00)), 10) := by
  have notLow : isLowSurrogate first = false := by
    simp only [isHighSurrogate, Bool.and_eq_true, decide_eq_true_eq] at isHigh
    simp only [isLowSurrogate, Bool.and_eq_false_iff, decide_eq_false_iff_not]
    omega
  have after :
      (high ++ '\\' :: 'u' :: low ++ rest).drop 4 = '\\' :: 'u' :: (low ++ rest) := by
    rw [List.append_assoc, ← fourHigh, List.drop_left]
    rfl
  rw [readEscapedChar, after, List.append_assoc, readUnit_append fourHigh meantHigh]
  simp only [bind, Except.bind, notLow, isHigh, Bool.false_eq_true, if_false, if_true]
  rw [readUnit_append fourLow meantLow]
  simp only [isLow, if_true]
  rfl

theorem readText_units
    {units rest : List Char} {c : Char} {index : Nat}
    (escaped : readEscapedChar (index + 2) (units ++ rest) = .ok (c, units.length))
    (ascii : Text.byteLength units = units.length)
    (content : List Char) (read : Nat) :
    readText index content read ('\\' :: 'u' :: units ++ rest) =
      readText (index + Text.byteLength ('\\' :: 'u' :: units)) (c :: content)
        (read + ('\\' :: 'u' :: units).length) rest := by
  have size : Text.byteLength ('\\' :: 'u' :: units) = 2 + units.length := by
    rw [← ascii]
    exact Text.byteLength_append ['\\', 'u'] units
  have count : ('\\' :: 'u' :: units).length = 2 + units.length :=
    Nat.add_comm units.length 2
  rw [List.cons_append, List.cons_append, readText, escaped, size, count, ← Nat.add_assoc,
    ← Nat.add_assoc]
  simp only
  rw [List.drop_left]

/-- Whatever its spelling, one character is read and the text is read on after it. -/
theorem readText_spelling
    {c : Char} {spelling : List Char} (spells : Spells c spelling)
    (index : Nat) (content : List Char) (read : Nat) (rest : List Char) :
    readText index content read (spelling ++ rest) =
      readText (index + Text.byteLength spelling) (c :: content) (read + spelling.length) rest := by
  cases spells with
  | raw printed notQuote notBackslash =>
      rw [List.singleton_append,
        readText.eq_6 index content read c rest notQuote (fun same _ => notBackslash same)
          (fun _ same _ => notBackslash same) (fun _ _ same _ => notBackslash same),
        if_neg (Nat.not_lt.mpr printed)]
      rfl
  | @simple mark c meant =>
      have notUnit : mark ≠ 'u' := by
        rintro rfl
        cases meant
      have ascii : mark.utf8Size = 1 := by
        unfold simpleEscape? at meant
        split at meant
        all_goals first | rfl | cases meant
      have size : Text.byteLength ['\\', mark] = 2 := by
        rw [Text.byteLength, Text.byteLength, ascii]
        rfl
      rw [List.cons_append, List.singleton_append,
        readText.eq_5 index content read mark rest notUnit, meant, size]
      rfl
  | @unit digits c four meant =>
      refine readText_units ?_ ?_ content read
      · rw [four]
        exact readEscapedChar_unit four meant (index + 2) rest
      · rw [four]
        exact byteLength_of_hexUnit? four meant
  | @pair high low first second fourHigh meantHigh isHigh fourLow meantLow isLow =>
      have ten : (high ++ '\\' :: 'u' :: low).length = 10 := by
        rw [List.length_append, List.length_cons, List.length_cons, fourHigh, fourLow]
      refine readText_units ?_ ?_ content read
      · rw [ten]
        exact readEscapedChar_pair fourHigh meantHigh isHigh fourLow meantLow isLow (index + 2) rest
      · have sizeHigh := byteLength_of_hexUnit? fourHigh meantHigh
        have sizeLow := byteLength_of_hexUnit? fourLow meantLow
        have sizeMark : Text.byteLength ('\\' :: 'u' :: low) = 2 + Text.byteLength low :=
          Text.byteLength_append ['\\', 'u'] low
        rw [ten, Text.byteLength_append, sizeMark, sizeHigh, sizeLow]

theorem hexDigit?_hexDigit {value : Nat} (below : value < 16) :
    hexDigit? (hexDigit value) = some value := by
  revert value
  decide

theorem spells_escapeChar (c : Char) : Spells c (escapeChar c) := by
  unfold escapeChar
  split
  iterate 7 exact .simple rfl
  rename_i notQuote notBackslash _ _ _ _ _
  split
  · rename_i control
    refine .unit rfl ?_
    have high := hexDigit?_hexDigit (show c.toNat / 16 < 16 by omega)
    have low := hexDigit?_hexDigit (show c.toNat % 16 < 16 by omega)
    have zero : hexDigit? '0' = some 0 := rfl
    rw [hexUnit?, zero, high, low]
    exact congrArg some (by omega)
  · rename_i printed
    exact .raw (Nat.not_lt.mp printed) notQuote notBackslash

/-- The spelling of a whole text, character by character. -/
inductive SpellsText : List Char → List Char → Prop where
  | nil : SpellsText [] []
  | cons {c : Char} {spelling text spelled : List Char}
      (first : Spells c spelling)
      (others : SpellsText text spelled) :
      SpellsText (c :: text) (spelling ++ spelled)

theorem spellsText_flatMap_escapeChar (text : List Char) :
    SpellsText text (text.flatMap escapeChar) := by
  induction text with
  | nil => exact .nil
  | cons c text inductionHypothesis => exact .cons (spells_escapeChar c) inductionHypothesis

theorem readText_spelled
    {text spelled : List Char} (spells : SpellsText text spelled)
    (index : Nat) (content : List Char) (read : Nat) (rest : List Char) :
    readText index content read (spelled ++ '"' :: rest) =
      .ok (String.ofList (content.reverse ++ text), read + spelled.length + 1,
        index + Text.byteLength spelled + 1) := by
  induction spells generalizing index content read with
  | nil =>
      rw [List.nil_append, readText, List.append_nil]
      rfl
  | @cons c spelling text spelled first others inductionHypothesis =>
      rw [List.append_assoc, readText_spelling first, inductionHypothesis, List.reverse_cons,
        List.append_assoc, List.singleton_append, List.length_append, Text.byteLength_append,
        Nat.add_assoc read, Nat.add_assoc index]

/-! ## Tokens at the front of a text -/

theorem tokensFrom_space
    {c : Char} (space : isSpace c = true) (index : Nat) (rest : List Char) :
    tokensFrom index (c :: rest) = tokensFrom (index + 1) rest := by
  rw [tokensFrom, if_pos space]

theorem utf8Size_of_isSpace {c : Char} (space : isSpace c = true) : c.utf8Size = 1 := by
  simp only [isSpace, Bool.or_eq_true, beq_iff_eq] at space
  rcases space with ((rfl | rfl) | rfl) | rfl
  all_goals rfl

theorem tokensFrom_spaces
    {blank : List Char} (spaces : ∀ c ∈ blank, isSpace c = true) (index : Nat) (rest : List Char) :
    tokensFrom index (blank ++ rest) = tokensFrom (index + Text.byteLength blank) rest := by
  induction blank generalizing index with
  | nil => rfl
  | cons c blank inductionHypothesis =>
      have space := spaces c List.mem_cons_self
      rw [List.cons_append, tokensFrom_space space,
        inductionHypothesis fun d member => spaces d (List.mem_cons_of_mem c member),
        Text.byteLength, utf8Size_of_isSpace space, Nat.add_assoc]

theorem tokensFrom_readToken
    {c : Char} {index count : Nat} {rest : List Char} {token : Token}
    (solid : isSpace c = false)
    (reads : readToken index c rest = (token, count))
    (goesOn : token.isLast = false) :
    tokensFrom index (c :: rest) = token :: tokensFrom token.stop (rest.drop count) := by
  rw [tokensFrom, if_neg (by rw [solid]; decide), reads]
  simp only
  rw [if_neg (by rw [goesOn]; decide)]

theorem tokensFrom_mark
    {c : Char} {kind : Kind} {index : Nat} {rest : List Char}
    (reads : readToken index c rest = mark kind index)
    (solid : isSpace c = false)
    (goesOn : Token.isLast ⟨kind, index, index + 1⟩ = false) :
    tokensFrom index (c :: rest) = ⟨kind, index, index + 1⟩ :: tokensFrom (index + 1) rest :=
  tokensFrom_readToken solid reads goesOn

theorem tokensFrom_spelled
    {text spelled : List Char} (spells : SpellsText text spelled) (index : Nat) (rest : List Char) :
    tokensFrom index ('"' :: spelled ++ '"' :: rest) =
      ⟨.text (String.ofList text), index, index + 1 + Text.byteLength spelled + 1⟩ ::
        tokensFrom (index + 1 + Text.byteLength spelled + 1) rest := by
  have reads :
      readToken index '"' (spelled ++ '"' :: rest) =
        (⟨.text (String.ofList text), index, index + 1 + Text.byteLength spelled + 1⟩,
          0 + spelled.length + 1) := by
    have content := readText_spelled spells (index + 1) [] 0 rest
    rw [readToken, quotedText, content]
    rfl
  have after : (spelled ++ '"' :: rest).drop (0 + spelled.length + 1) = rest := by
    rw [Nat.zero_add, ← List.drop_drop, List.drop_left]
    rfl
  rw [List.cons_append, tokensFrom_readToken rfl reads rfl, after]

theorem readLetters_append (index : Nat) (letters rest : List Char) :
    readLetters index letters (letters ++ rest) = .ok () := by
  induction letters generalizing index with
  | nil => rfl
  | cons letter letters inductionHypothesis =>
      rw [List.cons_append, readLetters, if_pos rfl, inductionHypothesis]

theorem tokensFrom_word
    {c : Char} {letters : String} {kind : Kind} {index : Nat} {rest : List Char}
    (reads : readToken index c (letters.toList ++ rest) =
      word kind letters index (letters.toList ++ rest))
    (solid : isSpace c = false)
    (goesOn : Token.isLast ⟨kind, index, index + 1 + letters.length⟩ = false) :
    tokensFrom index (c :: (letters.toList ++ rest)) =
      ⟨kind, index, index + 1 + letters.length⟩ ::
        tokensFrom (index + 1 + letters.length) rest := by
  rw [word, readLetters_append] at reads
  rw [tokensFrom_readToken solid reads goesOn, ← String.length_toList, List.drop_left]

/-! ## Pieces of text and the shape of their tokens -/

/-- In front of `rest` the text is read as tokens of this shape, and then `rest` is read. -/
def Lexes (Shape : List Token → Prop) (text rest : List Char) : Prop :=
  ∀ index,
    ∃ front,
      Shape front ∧
        tokensFrom index (text ++ rest) =
          front ++ tokensFrom (index + Text.byteLength text) rest

/-- One shape after another. -/
def Both (First Second : List Token → Prop) (tokens : List Token) : Prop :=
  ∃ front back, First front ∧ Second back ∧ tokens = front ++ back

/-- One token of a kind, wherever it starts and stops. -/
def IsToken (kind : Kind) (tokens : List Token) : Prop :=
  ∃ start stop, tokens = [⟨kind, start, stop⟩]

theorem Lexes.append
    {First Second : List Token → Prop} {text other rest : List Char}
    (front : Lexes First text (other ++ rest))
    (back : Lexes Second other rest) :
    Lexes (Both First Second) (text ++ other) rest := by
  intro index
  obtain ⟨firsts, isFirst, readFirst⟩ := front index
  obtain ⟨seconds, isSecond, readSecond⟩ := back (index + Text.byteLength text)
  refine ⟨firsts ++ seconds, ⟨firsts, seconds, isFirst, isSecond, rfl⟩, ?_⟩
  rw [List.append_assoc, readFirst, readSecond, List.append_assoc, Text.byteLength_append,
    Nat.add_assoc]

theorem Lexes.imp
    {Shape Other : List Token → Prop} {text rest : List Char}
    (lexes : Lexes Shape text rest)
    (weaker : ∀ tokens, Shape tokens → Other tokens) :
    Lexes Other text rest := by
  intro index
  obtain ⟨front, shaped, read⟩ := lexes index
  exact ⟨front, weaker front shaped, read⟩

theorem Lexes.nil {Shape : List Token → Prop} (empty : Shape []) (rest : List Char) :
    Lexes Shape [] rest :=
  fun _ => ⟨[], empty, rfl⟩

/-- White space after a piece adds no token. -/
theorem Lexes.append_spaces
    {Shape : List Token → Prop} {text blank rest : List Char}
    (lexes : Lexes Shape text (blank ++ rest))
    (spaces : ∀ c ∈ blank, isSpace c = true) :
    Lexes Shape (text ++ blank) rest := by
  intro index
  obtain ⟨front, shaped, read⟩ := lexes index
  refine ⟨front, shaped, ?_⟩
  rw [List.append_assoc, read, tokensFrom_spaces spaces, Text.byteLength_append, Nat.add_assoc]

theorem lexes_spaces
    {Shape : List Token → Prop} {blank : List Char}
    (spaces : ∀ c ∈ blank, isSpace c = true) (empty : Shape []) (rest : List Char) :
    Lexes Shape blank rest :=
  (Lexes.nil empty (blank ++ rest)).append_spaces spaces

theorem lexes_mark
    {c : Char} {kind : Kind} {rest : List Char}
    (reads : ∀ index, readToken index c rest = mark kind index)
    (solid : isSpace c = false)
    (goesOn : ∀ index, Token.isLast ⟨kind, index, index + 1⟩ = false)
    (ascii : c.utf8Size = 1) :
    Lexes (IsToken kind) [c] rest := by
  intro index
  refine ⟨[⟨kind, index, index + 1⟩], ⟨index, index + 1, rfl⟩, ?_⟩
  rw [List.singleton_append, tokensFrom_mark (reads index) solid (goesOn index), Text.byteLength,
    ascii]
  rfl

theorem lexes_word
    {c : Char} {letters : String} {kind : Kind} {rest : List Char}
    (reads : ∀ index rest, readToken index c rest = word kind letters index rest)
    (solid : isSpace c = false)
    (goesOn : ∀ index stop, Token.isLast ⟨kind, index, stop⟩ = false)
    (ascii : Text.byteLength (c :: letters.toList) = 1 + letters.length) :
    Lexes (IsToken kind) (c :: letters.toList) rest := by
  intro index
  refine ⟨[⟨kind, index, index + 1 + letters.length⟩], ⟨_, _, rfl⟩, ?_⟩
  rw [ascii, ← Nat.add_assoc, List.cons_append,
    tokensFrom_word (reads index _) solid (goesOn index _)]
  rfl

theorem lexes_spelled
    {text spelled : List Char} (spells : SpellsText text spelled) (rest : List Char) :
    Lexes (IsToken (.text (String.ofList text))) ('"' :: spelled ++ ['"']) rest := by
  intro index
  have size :
      index + Text.byteLength ('"' :: spelled ++ ['"']) =
        index + 1 + Text.byteLength spelled + 1 := by
    rw [Text.byteLength_append, ← Nat.add_assoc, Text.byteLength, ← Nat.add_assoc]
    rfl
  refine ⟨[⟨.text (String.ofList text), index, index + 1 + Text.byteLength spelled + 1⟩],
    ⟨_, _, rfl⟩, ?_⟩
  rw [List.append_assoc, List.singleton_append, tokensFrom_spelled spells, size]
  rfl

end Heredoc.Json
