import Heredoc.Proofs.Json.Numerals

/-!
# Inside and outside of quoted texts

A quote opens or closes a quoted text, unless it is escaped inside of one; a place is structural if
what stands before it leaves none open (`Structural`). Main statements: a quoted text is refused for
a cause of its own or is the spelling of its content (`readText_cases`), and then the place after it
is structural if the place before it was (`SpellsText.structural`).
-/

namespace Heredoc.Json

/-! ## Inside and outside of quoted texts -/

/-- What the quotes before a place make of it. -/
inductive Quoting where
  | outside
  | inside
  | escaped
deriving DecidableEq, Repr

namespace Quoting

/-- Where a text stands after one more character. -/
def next : Quoting → Char → Quoting
  | .outside, c => if c = '"' then .inside else .outside
  | .inside, c => if c = '"' then .outside else if c = '\\' then .escaped else .inside
  | .escaped, _ => .inside

/-- Where a text stands after these characters. -/
def after (quoting : Quoting) (cs : List Char) : Quoting :=
  cs.foldl next quoting

theorem after_cons (quoting : Quoting) (c : Char) (cs : List Char) :
    quoting.after (c :: cs) = (quoting.next c).after cs :=
  rfl

theorem after_append (quoting : Quoting) (front back : List Char) :
    quoting.after (front ++ back) = (quoting.after front).after back :=
  List.foldl_append

theorem next_eq_outside_iff {c : Char} (unquoted : c ≠ '"') (quoting : Quoting) :
    quoting.next c = .outside ↔ quoting = .outside := by
  cases quoting with
  | outside => rw [next, if_neg unquoted]
  | inside =>
      rw [next, if_neg unquoted]
      split
      all_goals decide
  | escaped => exact iff_of_false nofun nofun

theorem after_eq_outside_iff {cs : List Char} (unquoted : '"' ∉ cs) (quoting : Quoting) :
    quoting.after cs = .outside ↔ quoting = .outside := by
  induction cs generalizing quoting with
  | nil => exact Iff.rfl
  | cons c rest inductionHypothesis =>
      have others : '"' ∉ rest := fun member => unquoted (List.mem_cons_of_mem c member)
      have first : c ≠ '"' := fun same => unquoted (same ▸ List.mem_cons_self)
      rw [after_cons, inductionHypothesis others, next_eq_outside_iff first]

end Quoting

/-- No quoted text is open after `before`. -/
def Structural (before : List Char) : Prop :=
  Quoting.outside.after before = .outside

instance (before : List Char) : Decidable (Structural before) :=
  inferInstanceAs (Decidable (_ = _))

theorem Structural.append
    {front back : List Char} (first : Structural front) (second : Structural back) :
    Structural (front ++ back) := by
  rw [Structural, Quoting.after_append, first, second]

/-- Only a quote makes a difference. -/
theorem structural_append_iff
    {more : List Char} (unquoted : '"' ∉ more) (front : List Char) :
    Structural (front ++ more) ↔ Structural front := by
  rw [Structural, Quoting.after_append, Quoting.after_eq_outside_iff unquoted, Structural]

theorem structural_of_unquoted {cs : List Char} (unquoted : '"' ∉ cs) : Structural cs :=
  (structural_append_iff unquoted []).mpr rfl

/-! ## A quoted text is spelled or refused -/

/-- Whether the cause lies in a quoted text. -/
def Cause.inText : Cause → Bool
  | .endInText | .invalidEscape | .controlCharacter | .loneSurrogate | .brokenSurrogatePair => true
  | _ => false

theorem hexDigit?_lt {c : Char} {value : Nat} (meant : hexDigit? c = some value) : value < 16 := by
  unfold hexDigit? at meant
  split at meant
  · rename_i digit
    have high : c.toNat ≤ 57 := (Char.isDigit_iff_toNat.mp digit).2
    have zero : '0'.toNat = 48 := rfl
    cases meant
    omega
  · split at meant
    · rename_i lower
      rw [Bool.and_eq_true, decide_eq_true_eq, decide_eq_true_eq] at lower
      have high : c.toNat ≤ 102 := UInt32.le_iff_toNat_le.mp lower.2
      have first : 'a'.toNat = 97 := rfl
      cases meant
      omega
    · split at meant
      · rename_i upper
        rw [Bool.and_eq_true, decide_eq_true_eq, decide_eq_true_eq] at upper
        have high : c.toNat ≤ 70 := UInt32.le_iff_toNat_le.mp upper.2
        have first : 'A'.toNat = 65 := rfl
        cases meant
        omega
      · cases meant

theorem exists_of_hexUnit? {cs : List Char} {unit : Nat} (meant : hexUnit? cs = some unit) :
    ∃ digits rest,
      cs = digits ++ rest ∧ digits.length = 4 ∧ hexUnit? digits = some unit ∧ unit < 0x10000 := by
  unfold hexUnit? at meant
  split at meant
  · rename_i a b c d rest
    have whole := meant
    simp only [Option.bind_eq_bind, Option.bind_eq_some_iff] at meant
    obtain ⟨first, isA, second, isB, third, isC, fourth, isD, sum⟩ := meant
    refine ⟨[a, b, c, d], rest, rfl, rfl, whole, ?_⟩
    have lowA := hexDigit?_lt isA
    have lowB := hexDigit?_lt isB
    have lowC := hexDigit?_lt isC
    have lowD := hexDigit?_lt isD
    cases sum
    omega
  · cases meant

theorem readUnit_cases (index : Nat) (cs : List Char) :
    (∃ problem, readUnit index cs = .error problem ∧ problem.cause.inText = true) ∨
      ∃ unit digits rest,
        readUnit index cs = .ok unit ∧ cs = digits ++ rest ∧ digits.length = 4 ∧
          hexUnit? digits = some unit ∧ unit < 0x10000 := by
  unfold readUnit
  split
  · exact .inl ⟨_, rfl, rfl⟩
  · split
    · rename_i unit meant
      obtain ⟨digits, rest, parts⟩ := exists_of_hexUnit? meant
      exact .inr ⟨unit, digits, rest, rfl, parts⟩
    · exact .inl ⟨_, rfl, rfl⟩

theorem toNat_ofNat_of_unit
    {unit : Nat} (small : unit < 0x10000)
    (notLow : isLowSurrogate unit = false) (notHigh : isHighSurrogate unit = false) :
    (Char.ofNat unit).toNat = unit := by
  simp only [isLowSurrogate, isHighSurrogate, Bool.and_eq_false_iff, decide_eq_false_iff_not]
    at notLow notHigh
  have valid : unit.isValidChar := by
    rcases Nat.lt_or_ge unit 0xD800 with low | high
    · exact .inl low
    · exact .inr ⟨by omega, by omega⟩
  rw [Char.ofNat, dif_pos valid]
  rfl

theorem readEscapedChar_cases (index : Nat) (cs : List Char) :
    (∃ problem, readEscapedChar index cs = .error problem ∧ problem.cause.inText = true) ∨
      ∃ c units rest,
        readEscapedChar index cs = .ok (c, units.length) ∧ cs = units ++ rest ∧
          Spells c ('\\' :: 'u' :: units) := by
  rcases readUnit_cases index cs with
    ⟨problem, broken, cause⟩ | ⟨first, high, rest, read, rfl, four, meant, small⟩
  · refine .inl ⟨problem, ?_, cause⟩
    rw [readEscapedChar, broken]
    rfl
  have dropped : (high ++ rest).drop 4 = rest := four ▸ List.drop_left
  unfold readEscapedChar
  simp only [read, dropped, bind, Except.bind]
  split
  · exact .inl ⟨_, rfl, rfl⟩
  rename_i notLow
  split
  · rename_i isHigh
    split
    · exact .inl ⟨_, rfl, rfl⟩
    · exact .inl ⟨_, rfl, rfl⟩
    · rename_i more
      rcases readUnit_cases (index + 6) more with
        ⟨problem, broken, cause⟩ | ⟨second, low, after, readLow, rfl, fourLow, meantLow, _⟩
      · simp only [broken]
        exact .inl ⟨problem, rfl, cause⟩
      · simp only [readLow]
        split
        · rename_i isLow
          refine .inr ⟨_, high ++ '\\' :: 'u' :: low, after, ?_, ?_,
            .pair four meant isHigh fourLow meantLow isLow⟩
          · rw [List.length_append, List.length_cons, List.length_cons, four, fourLow]
            rfl
          · rw [List.append_assoc]
            rfl
        · exact .inl ⟨_, rfl, rfl⟩
    · exact .inl ⟨_, rfl, rfl⟩
    · exact .inl ⟨_, rfl, rfl⟩
  · rename_i notHigh
    rw [Bool.not_eq_true] at notLow notHigh
    have same := toNat_ofNat_of_unit small notLow notHigh
    refine .inr ⟨Char.ofNat first, high, rest, ?_, rfl, .unit four ?_⟩
    · rw [four]
      rfl
    · rw [meant, same]

/-- What is read as a quoted text is the spelling of its content. -/
theorem readText_cases (index : Nat) (content : List Char) (read : Nat) (cs : List Char) :
    (∃ problem, readText index content read cs = .error problem ∧ problem.cause.inText = true) ∨
      ∃ text spelled rest, SpellsText text spelled ∧ cs = spelled ++ '"' :: rest := by
  fun_induction readText index content read cs with
  | case1 => exact .inl ⟨_, rfl, rfl⟩
  | case2 index content read rest => exact .inr ⟨[], [], rest, .nil, rfl⟩
  | case3 => exact .inl ⟨_, rfl, rfl⟩
  | case4 index content read rest problem broken =>
      rcases readEscapedChar_cases (index + 2) rest with ⟨_, found, cause⟩ | ⟨_, _, _, ok, _⟩
      · rw [broken] at found
        cases found
        exact .inl ⟨problem, rfl, cause⟩
      · rw [broken] at ok
        cases ok
  | case5 index content read rest c count escaped inductionHypothesis =>
      rcases readEscapedChar_cases (index + 2) rest with
        ⟨_, found, _⟩ | ⟨_, units, more, ok, rfl, spells⟩
      · rw [escaped] at found
        cases found
      · rw [escaped] at ok
        cases ok
        refine inductionHypothesis.imp_right ?_
        rintro ⟨text, spelled, after, others, whole⟩
        rw [List.drop_left] at whole
        exact ⟨c :: text, _, after, .cons spells others, by simp [whole]⟩
  | case6 index content read c rest notUnit meant simple inductionHypothesis =>
      refine inductionHypothesis.imp_right ?_
      rintro ⟨text, spelled, after, others, rfl⟩
      exact ⟨meant :: text, _, after, .cons (.simple simple) others, rfl⟩
  | case7 => exact .inl ⟨_, rfl, rfl⟩
  | case8 => exact .inl ⟨_, rfl, rfl⟩
  | case9 index content read c rest notQuote notLast _ notEscape printed inductionHypothesis =>
      have notBackslash : c ≠ '\\' := by
        intro same
        cases rest with
        | nil => exact notLast same rfl
        | cons d more => exact notEscape d more same rfl
      have raw : Spells c [c] := .raw (Nat.not_lt.mp printed) notQuote notBackslash
      refine inductionHypothesis.imp_right ?_
      rintro ⟨text, spelled, after, others, rfl⟩
      exact ⟨c :: text, _, after, .cons raw others, rfl⟩

/-! ## A quoted text is closed where it ends -/

theorem hexDigit?_ne
    {c mark : Char} {value : Nat} (meant : hexDigit? c = some value)
    (other : hexDigit? mark = none) : c ≠ mark := by
  rintro rfl
  rw [meant] at other
  cases other

theorem after_inside_of_hexUnit?
    {digits : List Char} {unit : Nat}
    (four : digits.length = 4) (meant : hexUnit? digits = some unit) :
    Quoting.inside.after digits = .inside := by
  obtain ⟨a, b, c, d, rfl⟩ := List.length_eq_four.mp four
  rw [hexUnit?] at meant
  simp only [Option.bind_eq_bind, Option.bind_eq_some_iff] at meant
  obtain ⟨_, isA, _, isB, _, isC, _, isD, _⟩ := meant
  have stays {e : Char} {value : Nat} (isE : hexDigit? e = some value) :
      Quoting.inside.next e = .inside := by
    rw [Quoting.next, if_neg (hexDigit?_ne isE rfl), if_neg (hexDigit?_ne isE rfl)]
  rw [Quoting.after_cons, stays isA, Quoting.after_cons, stays isB, Quoting.after_cons, stays isC,
    Quoting.after_cons, stays isD]
  rfl

theorem Spells.after_inside {c : Char} {spelling : List Char} (spells : Spells c spelling) :
    Quoting.inside.after spelling = .inside := by
  cases spells with
  | raw printed notQuote notBackslash =>
      rw [Quoting.after_cons, Quoting.next, if_neg notQuote, if_neg notBackslash]
      rfl
  | simple meant => rfl
  | @unit digits c four meant =>
      have digitsInside := after_inside_of_hexUnit? four meant
      exact digitsInside
  | @pair high low first second fourHigh meantHigh isHigh fourLow meantLow isLow =>
      calc
        Quoting.inside.after ('\\' :: 'u' :: (high ++ '\\' :: 'u' :: low))
        _ = Quoting.inside.after (high ++ '\\' :: 'u' :: low) := rfl
        _ = Quoting.inside.after low := by
          rw [Quoting.after_append, after_inside_of_hexUnit? fourHigh meantHigh]
          rfl
        _ = .inside := after_inside_of_hexUnit? fourLow meantLow

theorem SpellsText.after_inside {text spelled : List Char} (spells : SpellsText text spelled) :
    Quoting.inside.after spelled = .inside := by
  induction spells with
  | nil => rfl
  | cons first others inductionHypothesis =>
      rw [Quoting.after_append, first.after_inside, inductionHypothesis]

theorem SpellsText.structural {text spelled : List Char} (spells : SpellsText text spelled) :
    Structural ('"' :: spelled ++ ['"']) := by
  have opened : Quoting.outside.next '"' = .inside := rfl
  rw [Structural, List.cons_append, Quoting.after_cons, opened, Quoting.after_append,
    spells.after_inside]
  rfl

end Heredoc.Json
