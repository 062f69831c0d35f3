import Heredoc.Proofs.Json.Lexing

/-!
# Written numbers and their tokens

A numeral is a number as the grammar has it: digits with no idle zero in front, perhaps a fraction,
perhaps an exponent. Each of its spellings is read as one token that holds its parts
(`tokensFrom_numeral`), in front of everything that cannot be part of a number.
-/

namespace Heredoc.Json

/-! ## Where digits and numbers stop -/

/-- The text goes on with something that is no digit. -/
def StopsDigits (rest : List Char) : Prop :=
  ∀ c, rest.head? = some c → c.isDigit = false

def continuesNumber (c : Char) : Bool :=
  c.isDigit || c == '.' || c == 'e' || c == 'E'

/-- The text goes on with something that cannot be part of a number. -/
def StopsNumber (rest : List Char) : Prop :=
  ∀ c, rest.head? = some c → continuesNumber c = false

theorem StopsNumber.stopsDigits {rest : List Char} (stops : StopsNumber rest) :
    StopsDigits rest := by
  intro c first
  have other := stops c first
  simp only [continuesNumber, Bool.or_eq_false_iff] at other
  exact other.1.1.1

theorem stopsDigits_cons {c : Char} (other : c.isDigit = false) (rest : List Char) :
    StopsDigits (c :: rest) := by
  intro first same
  rw [← Option.some.inj same]
  exact other

theorem continuesNumber_of_isSpace {c : Char} (space : isSpace c = true) :
    continuesNumber c = false := by
  simp only [isSpace, Bool.or_eq_true, beq_iff_eq] at space
  rcases space with ((rfl | rfl) | rfl) | rfl
  all_goals rfl

theorem isSpace_of_isDigit {c : Char} (digit : c.isDigit = true) : isSpace c = false := by
  rw [Bool.eq_false_iff]
  intro space
  simp only [isSpace, Bool.or_eq_true, beq_iff_eq] at space
  rcases space with ((rfl | rfl) | rfl) | rfl
  all_goals cases digit

theorem takeWhile_isDigit_append
    {written rest : List Char}
    (digits : ∀ c ∈ written, c.isDigit = true)
    (stops : StopsDigits rest) :
    (written ++ rest).takeWhile Char.isDigit = written := by
  rw [List.takeWhile_append_of_pos digits]
  cases rest with
  | nil => exact List.append_nil written
  | cons c more =>
      rw [List.takeWhile_cons_of_neg (by rw [stops c rfl]; decide), List.append_nil]

/-! ## Numerals -/

/-- One digit or more. -/
structure Digits where
  chars : List Char
  digits : ∀ c ∈ chars, c.isDigit = true
  nonempty : chars ≠ []

/-- Digits of which the first is no idle zero. -/
structure IsWhole (written : List Char) : Prop where
  digits : ∀ c ∈ written, c.isDigit = true
  nonempty : written ≠ []
  lead : written.head? = some '0' → written = ['0']

/-- A number of the grammar. -/
structure Numeral where
  negative : Bool
  whole : List Char
  isWhole : IsWhole whole
  fraction : Option Digits := none
  /-- The exponent, and whether it is negative. -/
  exponent : Option (Bool × Digits) := none

/-- How the sign of an exponent may be spelled. -/
inductive SpellsSign : Bool → List Char → Prop where
  | minus : SpellsSign true ['-']
  | plus : SpellsSign false ['+']
  | nothing : SpellsSign false []

/-- How an exponent may be spelled: its letter in either case, and its sign. -/
inductive SpellsExponent : Option (Bool × Digits) → List Char → Prop where
  | absent : SpellsExponent none []
  | present {letter : Char} {negative : Bool} {sign : List Char} {digits : Digits}
      (isLetter : letter = 'e' ∨ letter = 'E')
      (signed : SpellsSign negative sign) :
      SpellsExponent (some (negative, digits)) (letter :: (sign ++ digits.chars))

namespace Numeral

/-- The point and the digits after it. -/
def fractionText : Option Digits → List Char
  | none => []
  | some digits => '.' :: digits.chars

/-- The sign of a negative number. -/
def sign (negative : Bool) : List Char :=
  if negative then ['-'] else []

/-- The spellings of a numeral differ only in the letter and the sign of its exponent. -/
inductive Spells (numeral : Numeral) : List Char → Prop where
  | written {exponent : List Char} (spelled : SpellsExponent numeral.exponent exponent) :
      numeral.Spells
        (sign numeral.negative ++ (numeral.whole ++ (fractionText numeral.fraction ++ exponent)))

/-- The numeral as it is held in a token, where its exponent starts and the whole of it stops at
these offsets. -/
def number (numeral : Numeral) (start stop : Nat) : Number where
  negative := numeral.negative
  whole := numeral.whole
  fraction := numeral.fraction.map Digits.chars
  exponent := numeral.exponent.map fun exponent => ⟨exponent.1, exponent.2.chars, start⟩
  stop

end Numeral

/-! ## The three parts of a number -/

/-- What is read first: a zero, or all digits. -/
def readWhole (cs : List Char) : List Char :=
  match cs with
  | '0' :: _ => ['0']
  | _ => cs.takeWhile Char.isDigit

/-- What is read after the whole part: a point and digits, or nothing. -/
def readFraction? (index : Nat) (cs : List Char) : Except Problem (Option (List Char)) :=
  match cs with
  | '.' :: rest =>
      let digits := rest.takeWhile Char.isDigit
      if digits.isEmpty then
        match rest with
        | [] => .error ⟨.endInValue, index + 1⟩
        | _ => .error ⟨.invalidNumber, index + 2⟩
      else .ok (some digits)
  | _ => .ok none

def fractionLength : Option (List Char) → Nat
  | some digits => digits.length + 1
  | none => 0

/-- What is read after the fraction: a letter and an exponent, or nothing. -/
def readExponent? (index : Nat) (cs : List Char) : Except Problem (Option ExponentPart × Nat) :=
  match cs with
  | 'e' :: rest | 'E' :: rest =>
      (readExponentPart (index + 1) rest).map fun read => (some read.1, read.2 + 1)
  | _ => .ok (none, 0)

/-- The three parts are read one after the other. -/
theorem readUnsigned_eq (negative : Bool) (index : Nat) (cs : List Char) :
    readUnsigned negative index cs =
      let whole := readWhole cs
      let afterWhole := cs.drop whole.length
      let here := index + whole.length
      if whole = ['0'] ∧ afterWhole.head?.any Char.isDigit = true then
        .error ⟨.invalidNumber, here + 1⟩
      else
        (readFraction? here afterWhole).bind fun fraction =>
          let length := fractionLength fraction
          (readExponent? (here + length) (afterWhole.drop length)).map fun read =>
            (⟨negative, whole, fraction, read.1, here + length + read.2⟩,
              whole.length + length + read.2) := by
  unfold readUnsigned
  extract_lets whole afterWhole here withFraction onward
  have exponentRead (fraction : Option (List Char)) :
      withFraction fraction =
        (readExponent? (here + fractionLength fraction)
            (afterWhole.drop (fractionLength fraction))).map fun read =>
          (⟨negative, whole, fraction, read.1, here + fractionLength fraction + read.2⟩,
            whole.length + fractionLength fraction + read.2) := by
    cases fraction
    all_goals
      simp only [withFraction, fractionLength]
      generalize afterWhole.drop _ = rest
      split
      · rw [readExponent?]
        generalize readExponentPart _ _ = read
        cases read
        all_goals rfl
      · rw [readExponent?]
        generalize readExponentPart _ _ = read
        cases read
        all_goals rfl
      · rename_i noSmall noLarge
        unfold readExponent?
        split
        · exact (noSmall _ rfl).elim
        · exact (noLarge _ rfl).elim
        · rfl
  have fractionRead : onward () = (readFraction? here afterWhole).bind withFraction := by
    simp only [onward]
    clear_value withFraction afterWhole
    split
    · rename_i rest
      unfold readFraction?
      by_cases empty : (rest.takeWhile Char.isDigit).isEmpty = true
      · simp only [if_pos empty]
        cases rest
        all_goals rfl
      · simp only [if_neg empty]
        rfl
    · rename_i noPoint
      unfold readFraction?
      split
      · exact (noPoint _ rfl).elim
      · rfl
  rw [funext exponentRead] at fractionRead
  by_cases idle : whole = ['0'] ∧ afterWhole.head?.any Char.isDigit = true
  · exact (if_pos idle).trans (if_pos idle).symm
  · exact (if_neg idle).trans (fractionRead.trans (if_neg idle).symm)

/-! ## Reading numerals -/

theorem readExponentPart_spelled
    {negative : Bool} {sign rest : List Char} {digits : Digits}
    (signed : SpellsSign negative sign)
    (stops : StopsDigits rest)
    (index : Nat) :
    ∃ start,
      readExponentPart index (sign ++ digits.chars ++ rest) =
        .ok (⟨negative, digits.chars, start⟩, (sign ++ digits.chars).length) := by
  have taken := takeWhile_isDigit_append digits.digits stops
  cases shown : digits.chars with
  | nil => exact absurd shown digits.nonempty
  | cons c more =>
      have digit : c.isDigit = true := digits.digits c (shown ▸ List.mem_cons_self)
      rw [shown] at taken
      cases signed with
      | minus =>
          refine ⟨index + 1, ?_⟩
          simp only [List.cons_append, List.nil_append, readExponentPart] at taken ⊢
          rw [if_pos digit, taken, Nat.add_comm 1]
          rfl
      | plus =>
          refine ⟨index + 1, ?_⟩
          simp only [List.cons_append, List.nil_append, readExponentPart] at taken ⊢
          rw [if_pos digit, taken, Nat.add_comm 1]
          rfl
      | nothing =>
          refine ⟨index, ?_⟩
          have notPlus : c ≠ '+' := by
            rintro rfl
            cases digit
          have notMinus : c ≠ '-' := by
            rintro rfl
            cases digit
          rw [List.nil_append, List.cons_append]
          unfold readExponentPart
          split
          rename_i signs
          split at signs
          · rename_i same
            exact absurd (List.cons.inj same).1 notPlus
          · rename_i same
            exact absurd (List.cons.inj same).1 notMinus
          · cases signs
            rw [List.cons_append] at taken
            simp only [if_pos digit, taken, Nat.zero_add, Nat.add_zero]

theorem readWhole_append
    {written rest : List Char} (isWhole : IsWhole written) (stops : StopsDigits rest) :
    readWhole (written ++ rest) = written := by
  unfold readWhole
  split
  · rename_i tail zero
    have lead : written.head? = some '0' := by
      cases written with
      | nil => exact absurd rfl isWhole.nonempty
      | cons c more => exact congrArg some (List.cons.inj zero).1
    exact (isWhole.lead lead).symm
  · exact takeWhile_isDigit_append isWhole.digits stops

theorem stopsDigits_fractionText
    {fraction : Option Digits} {exponent : Option (Bool × Digits)} {text rest : List Char}
    (spelled : SpellsExponent exponent text)
    (stops : StopsNumber rest) :
    StopsDigits (Numeral.fractionText fraction ++ (text ++ rest)) := by
  cases fraction with
  | some digits => exact stopsDigits_cons rfl _
  | none =>
      cases spelled with
      | absent => exact stops.stopsDigits
      | present isLetter signed =>
          refine stopsDigits_cons ?_ _
          rcases isLetter with rfl | rfl
          all_goals rfl

theorem readExponent?_spelled
    {exponent : Option (Bool × Digits)} {text rest : List Char}
    (spelled : SpellsExponent exponent text)
    (stops : StopsNumber rest)
    (index : Nat) :
    ∃ start,
      readExponent? index (text ++ rest) =
        .ok (exponent.map (fun parts => ⟨parts.1, parts.2.chars, start⟩), text.length) := by
  cases spelled with
  | absent =>
      refine ⟨0, ?_⟩
      unfold readExponent?
      split
      · rename_i same
        cases stops 'e' (congrArg List.head? same)
      · rename_i same
        cases stops 'E' (congrArg List.head? same)
      · rfl
  | @present letter negative sign digits isLetter signed =>
      obtain ⟨start, read⟩ := readExponentPart_spelled signed stops.stopsDigits (index + 1)
      refine ⟨start, ?_⟩
      rcases isLetter with rfl | rfl
      all_goals
        rw [List.cons_append, readExponent?, read]
        rfl

theorem SpellsExponent.append_ne_point
    {exponent : Option (Bool × Digits)} {text rest more : List Char}
    (spelled : SpellsExponent exponent text)
    (stops : StopsNumber rest) :
    text ++ rest ≠ '.' :: more := by
  intro point
  cases spelled with
  | absent => cases stops '.' (congrArg List.head? point)
  | present isLetter signed =>
      rcases isLetter with rfl | rfl
      all_goals cases point

theorem readFraction?_spelled
    {exponent : Option (Bool × Digits)} {text rest : List Char}
    (spelled : SpellsExponent exponent text)
    (stops : StopsNumber rest)
    (fraction : Option Digits) (index : Nat) :
    readFraction? index (Numeral.fractionText fraction ++ (text ++ rest)) =
      .ok (fraction.map Digits.chars) := by
  cases fraction with
  | some digits =>
      have stopsFraction : StopsDigits (text ++ rest) :=
        @stopsDigits_fractionText none exponent text rest spelled stops
      have nonempty : digits.chars.isEmpty = false :=
        List.isEmpty_eq_false_iff.mpr digits.nonempty
      simp only [Numeral.fractionText, List.cons_append, readFraction?,
        takeWhile_isDigit_append digits.digits stopsFraction, nonempty]
      rfl
  | none =>
      rw [Numeral.fractionText, List.nil_append]
      unfold readFraction?
      split
      · rename_i more point
        exact absurd point (spelled.append_ne_point stops)
      · rfl

theorem fractionLength_map (fraction : Option Digits) :
    fractionLength (fraction.map Digits.chars) = (Numeral.fractionText fraction).length := by
  cases fraction with
  | none => rfl
  | some digits => rfl

theorem readUnsigned_numeral
    {numeral : Numeral} {exponent rest : List Char}
    (spelled : SpellsExponent numeral.exponent exponent)
    (stops : StopsNumber rest)
    (index : Nat) :
    let text := numeral.whole ++ (Numeral.fractionText numeral.fraction ++ exponent)
    ∃ start,
      readUnsigned numeral.negative index (text ++ rest) =
        .ok (numeral.number start (index + text.length), text.length) := by
  intro text
  have pieces :
      text ++ rest =
        numeral.whole ++ (Numeral.fractionText numeral.fraction ++ (exponent ++ rest)) := by
    simp only [text, List.append_assoc]
  have stopsWhole : StopsDigits (Numeral.fractionText numeral.fraction ++ (exponent ++ rest)) :=
    stopsDigits_fractionText spelled stops
  have noDigit :
      ¬ (Numeral.fractionText numeral.fraction ++ (exponent ++ rest)).head?.any Char.isDigit := by
    cases shown : (Numeral.fractionText numeral.fraction ++ (exponent ++ rest)).head? with
    | none => exact Bool.false_ne_true
    | some c => exact Bool.eq_false_iff.mp (stopsWhole c shown)
  obtain ⟨start, exponentRead⟩ :=
    readExponent?_spelled spelled stops
      (index + numeral.whole.length + (Numeral.fractionText numeral.fraction).length)
  refine ⟨start, ?_⟩
  rw [readUnsigned_eq, pieces, readWhole_append numeral.isWhole stopsWhole]
  dsimp only
  rw [List.drop_left, if_neg fun idle => noDigit idle.2, readFraction?_spelled spelled stops]
  simp only [Except.bind, fractionLength_map]
  rw [List.drop_left, exponentRead]
  have size :
      text.length =
        numeral.whole.length + (Numeral.fractionText numeral.fraction).length +
          exponent.length := by
    simp only [text, List.length_append, Nat.add_assoc]
  simp only [Except.map, size, Numeral.number, Nat.add_assoc]

theorem readNumber_numeral
    {numeral : Numeral} {text rest : List Char}
    (spelled : numeral.Spells text)
    (stops : StopsNumber rest)
    (index : Nat) :
    ∃ start,
      readNumber index (text ++ rest) =
        .ok (numeral.number start (index + text.length), text.length) := by
  obtain ⟨exponentSpelled⟩ := spelled
  rename_i exponent
  have unsigned := readUnsigned_numeral exponentSpelled stops
  have front :
      ∃ c more,
        numeral.whole ++ (Numeral.fractionText numeral.fraction ++ exponent) = c :: more ∧
          c.isDigit = true := by
    cases shown : numeral.whole with
    | nil => exact absurd shown numeral.isWhole.nonempty
    | cons c more =>
        exact ⟨c, _, rfl, numeral.isWhole.digits c (shown ▸ List.mem_cons_self)⟩
  obtain ⟨c, more, written, digit⟩ := front
  rw [written] at unsigned ⊢
  cases sign : numeral.negative with
  | true =>
      obtain ⟨start, read⟩ := unsigned (index + 1)
      refine ⟨start, ?_⟩
      have stop : index + 1 + (c :: more).length = index + ('-' :: c :: more).length := by
        simp only [List.length_cons]
        omega
      rw [sign, List.cons_append, stop] at read
      rw [Numeral.sign, if_pos rfl, List.singleton_append, List.cons_append, List.cons_append,
        readNumber, if_pos digit, read]
      rfl
  | false =>
      obtain ⟨start, read⟩ := unsigned index
      refine ⟨start, ?_⟩
      rw [sign] at read
      have notMinus : c ≠ '-' := by
        rintro rfl
        cases digit
      rw [Numeral.sign, if_neg Bool.false_ne_true, List.nil_append, ← read, List.cons_append]
      unfold readNumber
      split
      · rename_i minus
        exact absurd (List.cons.inj minus).1 notMinus
      · rename_i minus
        exact absurd (List.cons.inj minus).1 notMinus
      · rfl

theorem readToken_number
    {c : Char} {index length : Nat} {rest : List Char} {number : Number}
    (first : c = '-' ∨ c.isDigit = true)
    (read : readNumber index (c :: rest) = .ok (number, length)) :
    readToken index c rest = (⟨.number number, index, index + length⟩, length - 1) := by
  unfold readToken
  split
  iterate 10
    rcases first with same | digit
    · cases same
    · cases digit
  rw [if_pos first, read]

theorem isSpace_of_first {c : Char} (first : c = '-' ∨ c.isDigit = true) : isSpace c = false := by
  rcases first with rfl | digit
  · rfl
  · exact isSpace_of_isDigit digit

theorem Numeral.Spells.exists_cons
    {numeral : Numeral} {text : List Char} (spelled : numeral.Spells text) :
    ∃ c more, text = c :: more ∧ (c = '-' ∨ c.isDigit = true) := by
  obtain ⟨exponentSpelled⟩ := spelled
  cases numeral.negative with
  | true => exact ⟨'-', _, rfl, .inl rfl⟩
  | false =>
      cases shown : numeral.whole with
      | nil => exact absurd shown numeral.isWhole.nonempty
      | cons c more =>
          exact ⟨c, _, rfl, .inr (numeral.isWhole.digits c (shown ▸ List.mem_cons_self))⟩

theorem tokensFrom_numeral
    {numeral : Numeral} {text rest : List Char}
    (spelled : numeral.Spells text)
    (stops : StopsNumber rest)
    (index : Nat) :
    ∃ start,
      tokensFrom index (text ++ rest) =
        ⟨.number (numeral.number start (index + text.length)), index, index + text.length⟩ ::
          tokensFrom (index + text.length) rest := by
  obtain ⟨start, read⟩ := readNumber_numeral spelled stops index
  refine ⟨start, ?_⟩
  obtain ⟨c, more, rfl, first⟩ := spelled.exists_cons
  rw [List.cons_append] at read ⊢
  rw [tokensFrom_readToken (isSpace_of_first first) (readToken_number first read) rfl]
  rw [List.length_cons, Nat.add_sub_cancel, List.drop_left]

/-! ## Whole numbers -/

theorem toDigits_of_head? (value : Nat) :
    (Nat.toDigits 10 value).head? = some '0' → Nat.toDigits 10 value = ['0'] := by
  induction value using Nat.strongRecOn with
  | ind value inductionHypothesis =>
      intro zero
      by_cases small : value < 10
      · rw [Nat.toDigits_of_lt_base small] at zero ⊢
        exact congrArg (fun c => [c]) (Option.some.inj zero)
      · have large : 10 ≤ value := Nat.not_lt.mp small
        rw [Nat.toDigits_of_base_le (by decide) large,
          List.head?_append_of_ne_nil _ Nat.toDigits_ne_nil] at zero
        have front := inductionHypothesis (value / 10) (by omega) zero
        have value_eq : Nat.ofDigitChars 10 ['0'] 0 = value / 10 := by
          rw [← front, Nat.ofDigitChars_ten_toDigits]
        have vanishes : value / 10 = 0 := value_eq.symm
        omega

theorem isWhole_toDigits (value : Nat) : IsWhole (Nat.toDigits 10 value) where
  digits _ member := Nat.isDigit_of_mem_toDigits (by decide) (by decide) member
  nonempty := Nat.toDigits_ne_nil
  lead := toDigits_of_head? value

theorem tokensFrom_whole
    {written rest : List Char}
    (isWhole : IsWhole written)
    (stops : StopsNumber rest)
    (index : Nat) :
    tokensFrom index (written ++ rest) =
      ⟨.number ⟨false, written, none, none, index + written.length⟩, index,
          index + written.length⟩ ::
        tokensFrom (index + written.length) rest := by
  have spelled : Numeral.Spells ⟨false, written, isWhole, none, none⟩ written := by
    have bare : Numeral.Spells ⟨false, written, isWhole, none, none⟩ _ := .written .absent
    rw [Numeral.fractionText, List.append_nil, List.append_nil] at bare
    exact bare
  obtain ⟨start, read⟩ := tokensFrom_numeral spelled stops index
  exact read

theorem le_ofDigitChars (digits : List Char) (significand : Nat) :
    significand ≤ Nat.ofDigitChars 10 digits significand := by
  induction digits generalizing significand with
  | nil => exact Nat.le_refl significand
  | cons c digits inductionHypothesis =>
      rw [Nat.ofDigitChars_cons]
      exact Nat.le_trans (by omega) (inductionHypothesis _)

theorem absorbWhole_eq
    {digits : List Char} {significand : Nat}
    (fits : Nat.ofDigitChars 10 digits significand < UInt64.size) :
    Number.absorbWhole significand digits = (Nat.ofDigitChars 10 digits significand, 0) := by
  induction digits generalizing significand with
  | nil => rfl
  | cons c digits inductionHypothesis =>
      rw [Nat.ofDigitChars_cons, Nat.mul_comm] at fits ⊢
      have accepted : Number.accepts significand c = true :=
        decide_eq_true (Nat.lt_of_le_of_lt (le_ofDigitChars digits _) fits)
      rw [Number.absorbWhole, if_pos accepted]
      exact inductionHypothesis fits

theorem value_toDigits {value : Nat} (fits : value < UInt64.size) (stop : Nat) :
    Number.value ⟨false, Nat.toDigits 10 value, none, none, stop⟩ = .ok (.whole value) := by
  have absorbed : Number.absorbWhole 0 (Nat.toDigits 10 value) = (value, 0) := by
    have all := @absorbWhole_eq (Nat.toDigits 10 value) 0
    rw [Nat.ofDigitChars_ten_toDigits] at all
    exact all fits
  have parts : Number.parts ⟨false, Nat.toDigits 10 value, none, none, stop⟩ = (value, 0) := by
    rw [Number.parts, absorbed]
    rfl
  rw [Number.value, parts]
  rfl

/-! ## The range of numbers -/

/-- With these digits the number is read as a whole number of 64 bits or as a finite binary one. This
is said of the spelling and not of the value alone: every number below `10 ^ 308` is read
(`Numeral.inRange_of_magnitude_lt`), but close to the greatest finite number a spelling of 19 digits
or more can be refused, such as `1.797693134862315700e308`, when a shorter one is not. -/
def Numeral.InRange (numeral : Numeral) : Prop :=
  ∃ value, (numeral.number 0 0).value = .ok value

theorem Numeral.value_toOption (numeral : Numeral) (start stop : Nat) :
    (numeral.number start stop).value.toOption = (numeral.number 0 0).value.toOption := by
  have parts : (numeral.number start stop).parts = (numeral.number 0 0).parts := rfl
  simp only [Number.value, parts]
  generalize (numeral.number 0 0).parts = parts
  cases shown : numeral.exponent with
  | none =>
      simp only [Numeral.number, shown, Option.map_none, apply_ite Except.toOption]
      generalize Number.scale _ _ _ = scaled
      cases scaled
      all_goals rfl
  | some exponent =>
      simp only [Numeral.number, shown, Option.map_some]
      generalize Number.readExponent 0 0 exponent.2.chars = read
      obtain ⟨size, count⟩ := read
      cases size with
      | none =>
          simp only [apply_ite Except.toOption]
          rfl
      | some size =>
          dsimp only
          generalize Number.scale _ _ _ = scaled
          cases scaled
          all_goals rfl

/-- Where a number stands does not matter for whether it has a value. -/
theorem Numeral.InRange.exists_value
    {numeral : Numeral} (inRange : numeral.InRange) (start stop : Nat) :
    ∃ value, (numeral.number start stop).value = .ok value := by
  obtain ⟨value, read⟩ := inRange
  have same := numeral.value_toOption start stop
  rw [read] at same
  cases shown : (numeral.number start stop).value with
  | error problem =>
      rw [shown] at same
      cases same
  | ok other => exact ⟨other, rfl⟩

/-- A whole number as it is usually written. -/
def Numeral.ofNat (value : Nat) : Numeral where
  negative := false
  whole := Nat.toDigits 10 value
  isWhole := isWhole_toDigits value

theorem Numeral.spells_ofNat (value : Nat) :
    (Numeral.ofNat value).Spells (Nat.toDigits 10 value) := by
  have bare : (Numeral.ofNat value).Spells (Nat.toDigits 10 value ++ []) := .written .absent
  rwa [List.append_nil] at bare

theorem Numeral.inRange_ofNat {value : Nat} (fits : value < UInt64.size) :
    (Numeral.ofNat value).InRange :=
  ⟨.whole value, value_toDigits fits 0⟩

end Heredoc.Json
