import Heredoc.Proofs.Json.Quoting

/-!
# Words and numbers have no quotes

A word or a number takes characters of one byte each, none of them a quote (`PlainFront`), and where
reading it breaks off no quoted text is open (`BreaksOutside`). Main statements are those for words
(`readLetters_breaksOutside`), for numbers (`readNumber_breaksOutside`) and for numbers that are out
of range (`NumberFront.foundOutside_of_value`).
-/

namespace Heredoc.Json

/-! ## Places outside of quoted texts -/

/-- In a text that starts at offset `index`, the offset `at_` is structural, or the one after. -/
def FoundOutside (index : Nat) (cs : List Char) (at_ : Nat) : Prop :=
  ∃ front back,
    cs = front ++ back ∧ Structural front ∧
      (at_ = index + Text.byteLength front ∨
        back ≠ [] ∧ at_ = index + Text.byteLength front + 1)

namespace FoundOutside

theorem here (index : Nat) (cs : List Char) : FoundOutside index cs index :=
  ⟨[], cs, rfl, rfl, .inl rfl⟩

theorem oneByteOn {cs : List Char} (nonempty : cs ≠ []) (index : Nat) :
    FoundOutside index cs (index + 1) :=
  ⟨[], cs, rfl, rfl, .inr ⟨nonempty, rfl⟩⟩

theorem append
    {index at_ : Nat} {front cs : List Char}
    (structural : Structural front)
    (found : FoundOutside (index + Text.byteLength front) cs at_) :
    FoundOutside index (front ++ cs) at_ := by
  obtain ⟨more, back, rfl, others, place⟩ := found
  refine ⟨front ++ more, back, (List.append_assoc front more back).symm,
    structural.append others, ?_⟩
  rwa [Text.byteLength_append, ← Nat.add_assoc]

theorem le {index at_ : Nat} {cs : List Char} (found : FoundOutside index cs at_) :
    index ≤ at_ := by
  obtain ⟨front, back, _, _, place⟩ := found
  omega

end FoundOutside

/-! ## Fronts of one byte a character, without a quote -/

def isPlain (c : Char) : Bool :=
  c.toNat < 128 && c ≠ '"'

/-- So many leading characters are of one byte each, and none is a quote. -/
structure PlainFront (cs : List Char) (length : Nat) : Prop where
  reached : length ≤ cs.length
  plain : ∀ c ∈ cs.take length, isPlain c = true

namespace PlainFront

theorem nothing (cs : List Char) : PlainFront cs 0 where
  reached := Nat.zero_le _
  plain := by
    intro c member
    rw [List.take_zero] at member
    cases member

theorem cons
    {c : Char} {rest : List Char} {length : Nat}
    (first : isPlain c = true) (others : PlainFront rest length) :
    PlainFront (c :: rest) (length + 1) where
  reached := Nat.succ_le_succ others.reached
  plain := by
    intro d member
    rw [List.take_succ_cons] at member
    rcases List.mem_cons.mp member with same | later
    · rw [same]
      exact first
    · exact others.plain d later

theorem add
    {cs : List Char} {length more : Nat}
    (first : PlainFront cs length) (others : PlainFront (cs.drop length) more) :
    PlainFront cs (length + more) where
  reached := by
    have reached := others.reached
    have before := first.reached
    rw [List.length_drop] at reached
    omega
  plain := by
    intro c member
    rw [List.take_add] at member
    exact (List.mem_append.mp member).elim (first.plain c) (others.plain c)

theorem of_le
    {cs : List Char} {length less : Nat} (front : PlainFront cs length) (shorter : less ≤ length) :
    PlainFront cs less where
  reached := shorter.trans front.reached
  plain := by
    intro c member
    have inFront : c ∈ (cs.take length).take less := by
      rwa [List.take_take, Nat.min_eq_left shorter]
    exact front.plain c (List.mem_of_mem_take inFront)

theorem takeWhile_isDigit (cs : List Char) :
    PlainFront cs (cs.takeWhile Char.isDigit).length where
  reached := (List.takeWhile_sublist Char.isDigit).length_le
  plain := by
    intro c member
    rw [← List.prefix_iff_eq_take.mp (List.takeWhile_prefix Char.isDigit)] at member
    have digit : c.isDigit = true := List.all_eq_true.mp List.all_takeWhile c member
    have high : c.toNat ≤ 57 := (Char.isDigit_iff_toNat.mp digit).2
    have notQuote : c ≠ '"' := by
      intro same
      rw [same] at digit
      cases digit
    have low : c.toNat < 128 := by omega
    rw [isPlain, decide_eq_true low, decide_eq_true notQuote]
    rfl

section Front

variable {cs : List Char} {length : Nat} (front : PlainFront cs length)
include front

theorem byteLength : Text.byteLength (cs.take length) = length := by
  have ascii : ∀ c ∈ cs.take length, c.toNat < 128 := by
    intro c member
    have plain := front.plain c member
    rw [isPlain, Bool.and_eq_true, decide_eq_true_eq] at plain
    exact plain.1
  rw [Text.byteLength_of_lt ascii, List.length_take, Nat.min_eq_left front.reached]

theorem structural : Structural (cs.take length) := by
  apply structural_of_unquoted
  intro member
  exact absurd (front.plain '"' member) (by decide)

theorem foundOutside_drop
    {index at_ : Nat} (found : FoundOutside (index + length) (cs.drop length) at_) :
    FoundOutside index cs at_ := by
  rw [← front.byteLength] at found
  have joined := FoundOutside.append front.structural found
  rwa [front.byteLength, List.take_append_drop] at joined

theorem foundOutside
    {index at_ : Nat} (reached : index ≤ at_) (within : at_ ≤ index + length) :
    FoundOutside index cs at_ := by
  have shorter := front.of_le (Nat.sub_le_iff_le_add'.mpr within)
  apply shorter.foundOutside_drop
  rw [Nat.add_sub_cancel' reached]
  exact FoundOutside.here at_ _

end Front

end PlainFront

/-- Reading gives a result as it should, or breaks off outside of quoted texts. -/
def BreaksOutside {α : Type} (index : Nat) (cs : List Char) (Good : α → Prop) :
    Except Problem α → Prop
  | .ok result => Good result
  | .error problem => FoundOutside index cs problem.index

/-! ## Words -/

theorem readLetters_breaksOutside
    {letters : List Char} (plain : ∀ c ∈ letters, isPlain c = true)
    (index : Nat) (cs : List Char) :
    BreaksOutside index cs (fun _ => PlainFront cs letters.length)
      (readLetters index letters cs) := by
  induction letters generalizing index cs with
  | nil => exact PlainFront.nothing cs
  | cons letter letters inductionHypothesis =>
      cases cs with
      | nil => exact FoundOutside.here index []
      | cons c rest =>
          by_cases same : c = letter
          · have first : isPlain c = true := by
              rw [same]
              exact plain letter List.mem_cons_self
            have one : PlainFront (c :: rest) 1 := .cons first (.nothing rest)
            have later :=
              inductionHypothesis (fun d member => plain d (List.mem_cons_of_mem letter member))
                (index + 1) rest
            rw [readLetters, if_pos same]
            cases read : readLetters (index + 1) letters rest with
            | ok _ =>
                rw [read] at later
                exact later.cons first
            | error problem =>
                rw [read] at later
                exact one.foundOutside_drop later
          · rw [readLetters, if_neg same]
            exact FoundOutside.oneByteOn (List.cons_ne_nil c rest) index

/-! ## Numbers -/

theorem readExponentPart_breaksOutside (index : Nat) (cs : List Char) :
    BreaksOutside index cs
      (fun read =>
        PlainFront cs read.2 ∧ index ≤ read.1.start ∧
          read.1.start + read.1.digits.length ≤ index + read.2)
      (readExponentPart index cs) := by
  unfold readExponentPart
  split
  rename_i negative signs rest sign
  obtain ⟨signed, rfl⟩ : PlainFront cs signs ∧ rest = cs.drop signs := by
    split at sign
    · cases sign
      exact ⟨.cons rfl (.nothing _), rfl⟩
    · cases sign
      exact ⟨.cons rfl (.nothing _), rfl⟩
    · cases sign
      exact ⟨.nothing cs, rfl⟩
  have digits := PlainFront.takeWhile_isDigit (cs.drop signs)
  cases after : cs.drop signs with
  | nil =>
      apply signed.foundOutside_drop
      exact FoundOutside.here _ _
  | cons c rest =>
      rw [after] at digits
      by_cases digit : c.isDigit = true
      · simp only [if_pos digit]
        refine ⟨signed.add ?_, Nat.le_add_right _ _, Nat.le_of_eq (Nat.add_assoc _ _ _)⟩
        rw [after]
        exact digits
      · simp only [if_neg digit]
        apply signed.foundOutside_drop
        rw [after]
        exact FoundOutside.oneByteOn (List.cons_ne_nil c rest) _

theorem readExponent?_breaksOutside (index : Nat) (cs : List Char) :
    BreaksOutside index cs
      (fun read =>
        PlainFront cs read.2 ∧
          ∀ part ∈ read.1,
            index ≤ part.start ∧ part.start + part.digits.length ≤ index + read.2)
      (readExponent? index cs) := by
  have lettered {c : Char} (plain : isPlain c = true) (rest : List Char) :
      BreaksOutside index (c :: rest)
        (fun read : Option ExponentPart × Nat =>
          PlainFront (c :: rest) read.2 ∧
            ∀ part ∈ read.1,
              index ≤ part.start ∧ part.start + part.digits.length ≤ index + read.2)
        ((readExponentPart (index + 1) rest).map fun read => (some read.1, read.2 + 1)) := by
    have letter : PlainFront (c :: rest) 1 := .cons plain (.nothing rest)
    have outside := readExponentPart_breaksOutside (index + 1) rest
    cases result : readExponentPart (index + 1) rest with
    | error problem =>
        rw [result] at outside
        exact letter.foundOutside_drop outside
    | ok read =>
        rw [result] at outside
        obtain ⟨front, starts, ends⟩ := outside
        refine ⟨front.cons plain, ?_⟩
        intro part isPart
        cases isPart
        dsimp only
        omega
  unfold readExponent?
  split
  · exact lettered rfl _
  · exact lettered rfl _
  · exact ⟨.nothing cs, nofun⟩

theorem readFraction?_breaksOutside (index : Nat) (cs : List Char) :
    BreaksOutside index cs (fun fraction => PlainFront cs (fractionLength fraction))
      (readFraction? index cs) := by
  unfold readFraction?
  split
  · rename_i rest
    have point : PlainFront ('.' :: rest) 1 := .cons rfl (.nothing rest)
    by_cases empty : (rest.takeWhile Char.isDigit).isEmpty = true
    · simp only [if_pos empty]
      cases rest with
      | nil =>
          apply point.foundOutside_drop
          exact FoundOutside.here _ _
      | cons c more =>
          apply point.foundOutside_drop
          exact FoundOutside.oneByteOn (List.cons_ne_nil c more) _
    · simp only [if_neg empty]
      exact (PlainFront.takeWhile_isDigit rest).cons rfl
  · exact PlainFront.nothing cs

/-- A number at the front of a text, and where its parts are. -/
structure NumberFront (index : Nat) (cs : List Char) (number : Number) (length : Nat) : Prop where
  plain : PlainFront cs length
  stop : number.stop = index + length
  exponent :
    ∀ part ∈ number.exponent,
      index ≤ part.start ∧ part.start + part.digits.length ≤ index + length

theorem plainFront_readWhole (cs : List Char) : PlainFront cs (readWhole cs).length := by
  unfold readWhole
  split
  · exact .cons rfl (.nothing _)
  · exact .takeWhile_isDigit cs

theorem readUnsigned_breaksOutside (negative : Bool) (index : Nat) (cs : List Char) :
    BreaksOutside index cs
      (fun read => NumberFront index cs read.1 read.2 ∧ (readWhole cs).length ≤ read.2)
      (readUnsigned negative index cs) := by
  have whole := plainFront_readWhole cs
  rw [readUnsigned_eq]
  dsimp only
  split
  · rename_i idle
    apply whole.foundOutside_drop
    refine FoundOutside.oneByteOn ?_ _
    intro empty
    rw [empty] at idle
    cases idle.2
  · have fractionOutside :=
      readFraction?_breaksOutside (index + (readWhole cs).length) (cs.drop (readWhole cs).length)
    cases fractionRead :
        readFraction? (index + (readWhole cs).length) (cs.drop (readWhole cs).length) with
    | error problem =>
        rw [fractionRead] at fractionOutside
        exact whole.foundOutside_drop fractionOutside
    | ok fraction =>
        rw [fractionRead] at fractionOutside
        have front := whole.add fractionOutside
        have exponentOutside :=
          readExponent?_breaksOutside (index + (readWhole cs).length + fractionLength fraction)
            ((cs.drop (readWhole cs).length).drop (fractionLength fraction))
        dsimp only [Except.bind]
        cases exponentRead :
            readExponent? (index + (readWhole cs).length + fractionLength fraction)
              ((cs.drop (readWhole cs).length).drop (fractionLength fraction)) with
        | error problem =>
            rw [exponentRead, List.drop_drop, Nat.add_assoc] at exponentOutside
            exact front.foundOutside_drop exponentOutside
        | ok read =>
            rw [exponentRead, List.drop_drop] at exponentOutside
            refine ⟨⟨front.add exponentOutside.1, ?_, ?_⟩, ?_⟩
            · dsimp only
              omega
            · intro part isPart
              have place := exponentOutside.2 part isPart
              dsimp only
              omega
            · dsimp only
              omega

theorem length_readWhole_pos {c : Char} (digit : c.isDigit = true) (rest : List Char) :
    0 < (readWhole (c :: rest)).length := by
  unfold readWhole
  split
  · exact Nat.succ_pos 0
  · rw [List.takeWhile_cons_of_pos digit]
    exact Nat.succ_pos _

theorem readNumber_breaksOutside
    {c : Char} (first : c = '-' ∨ c.isDigit = true) (index : Nat) (rest : List Char) :
    BreaksOutside index (c :: rest)
      (fun read => NumberFront index (c :: rest) read.1 read.2 ∧ 0 < read.2)
      (readNumber index (c :: rest)) := by
  unfold readNumber
  split
  · rename_i alone
    cases alone
    have minus : PlainFront ['-'] 1 := .cons rfl (.nothing [])
    apply minus.foundOutside_drop
    exact FoundOutside.here _ _
  · rename_i d more signed
    cases signed
    have minus : PlainFront ('-' :: d :: more) 1 := .cons rfl (.nothing (d :: more))
    split
    · have outside := readUnsigned_breaksOutside true (index + 1) (d :: more)
      cases result : readUnsigned true (index + 1) (d :: more) with
      | error problem =>
          rw [result] at outside
          exact minus.foundOutside_drop outside
      | ok read =>
          rw [result] at outside
          have stop := outside.1.stop
          refine ⟨⟨outside.1.plain.cons rfl, ?_, ?_⟩, Nat.succ_pos _⟩
          · dsimp only
            omega
          · intro part isPart
            have place := outside.1.exponent part isPart
            dsimp only
            omega
    · apply minus.foundOutside_drop
      exact FoundOutside.oneByteOn (List.cons_ne_nil d more) _
  · rename_i notAlone notSigned
    have digit : c.isDigit = true := by
      apply first.resolve_left
      intro minus
      cases rest with
      | nil => exact notAlone (by rw [minus])
      | cons d more => exact notSigned d more (by rw [minus])
    have pos := length_readWhole_pos digit rest
    have outside := readUnsigned_breaksOutside false index (c :: rest)
    cases result : readUnsigned false index (c :: rest) with
    | error problem =>
        rw [result] at outside
        exact outside
    | ok read =>
        rw [result] at outside
        exact ⟨outside.1, Nat.lt_of_lt_of_le pos outside.2⟩

theorem readExponent_le (value read : Nat) (digits : List Char) :
    (Number.readExponent value read digits).2 ≤ read + digits.length := by
  induction digits generalizing value read with
  | nil => exact Nat.le_refl read
  | cons c rest inductionHypothesis =>
      rw [Number.readExponent]
      split
      · exact Nat.add_le_add_left (Nat.le_add_left 1 rest.length) read
      · have later := inductionHypothesis (value * 10 + Number.digit c) (read + 1)
        rw [List.length_cons]
        omega

/-- A number out of range is noticed in its exponent or at its end. -/
theorem NumberFront.foundOutside_of_value
    {index length : Nat} {cs : List Char} {number : Number} {problem : Problem}
    (front : NumberFront index cs number length)
    (refused : number.value = .error problem) :
    FoundOutside index cs problem.index := by
  have atEnd : FoundOutside index cs number.stop := by
    apply front.plain.foundOutside
    all_goals
      have stop := front.stop
      omega
  unfold Number.value at refused
  dsimp only at refused
  split at refused
  · rename_i part isPart
    have place := front.exponent part isPart
    have read := readExponent_le 0 0 part.digits
    split at refused
    · split at refused
      · cases refused
      · cases refused
        exact atEnd
    · rename_i count overflow
      rw [overflow] at read
      split at refused
      · cases refused
        apply front.plain.foundOutside
        all_goals
          dsimp only at read ⊢
          omega
      · cases refused
  · split at refused
    · split at refused
      · cases refused
      · cases refused
        exact atEnd
    · split at refused
      · cases refused
      · split at refused
        all_goals cases refused

end Heredoc.Json
