import Heredoc.Json.Check
import Heredoc.Proofs.Json.PlainFronts

/-!
# Problems that are found outside of quoted texts

The check stops at a token that it does not expect, or at one that is broken in itself. Main
statement: if no quoted text is broken, then it stops outside of quoted texts, or at the first byte
after such a place (`foundOutside_of_firstProblem`).
-/

namespace Heredoc.Json

/-! ## Tokens -/

/-- The problems that a token has in itself, wherever it stands. -/
inductive Token.Owns (token : Token) : Problem → Prop where
  | text {problem : Problem} {skimmed : Option Problem}
      (kind : token.kind = .brokenText problem skimmed) :
      Owns token problem
  | broken {problem skimmed : Problem} (kind : token.kind = .broken problem skimmed) :
      Owns token problem
  | value {number : Number} {problem : Problem}
      (kind : token.kind = .number number) (refused : number.value = .error problem) :
      Owns token problem

/-- Whether no token of this kind has a problem in itself. -/
def Kind.isSound : Kind → Bool
  | .number _ | .brokenText .. | .broken .. => false
  | _ => true

theorem Token.not_owns
    {token : Token} (sound : token.kind.isSound = true) (problem : Problem) :
    ¬ token.Owns problem := by
  intro owned
  cases owned with
  | text kind =>
      rw [kind] at sound
      cases sound
  | broken kind =>
      rw [kind] at sound
      cases sound
  | value kind =>
      rw [kind] at sound
      cases sound

def Token.isBrokenText (token : Token) : Bool :=
  match token.kind with
  | .brokenText .. => true
  | _ => false

/-- What is known of the token that is read first. -/
structure TokenFront (index : Nat) (c : Char) (rest : List Char) (read : Token × Nat) : Prop where
  start : read.1.start = index
  longer : index < read.1.stop
  own :
    ∀ problem,
      read.1.Owns problem →
      problem.cause.inText = false →
      FoundOutside index (c :: rest) problem.index
  onward :
    read.1.isLast = false →
    read.1.isBrokenText = false →
    ∃ front,
      c :: rest = front ++ rest.drop read.2 ∧ Structural front ∧
        read.1.stop = index + Text.byteLength front

theorem TokenFront.peekIndex
    {index : Nat} {c : Char} {rest : List Char} {read : Token × Nat}
    (front : TokenFront index c rest read) :
    read.1.peekIndex = index + 1 := by
  have longer := front.longer
  rw [Token.peekIndex, front.start]
  omega

/-- A token that takes the first characters of the text, none of them a quote. -/
theorem tokenFront_of_plainFront
    {index count : Nat} {c : Char} {rest : List Char} {kind : Kind}
    (plain : PlainFront (c :: rest) (count + 1))
    (own : ∀ problem, Token.Owns ⟨kind, index, index + (count + 1)⟩ problem →
      FoundOutside index (c :: rest) problem.index) :
    TokenFront index c rest (⟨kind, index, index + (count + 1)⟩, count) where
  start := rfl
  longer := Nat.lt_add_of_pos_right (Nat.succ_pos count)
  own problem owned _ := own problem owned
  onward _ _ := by
    refine ⟨(c :: rest).take (count + 1), (List.take_append_drop (count + 1) (c :: rest)).symm,
      plain.structural, ?_⟩
    rw [plain.byteLength]

theorem tokenFront_mark
    {c : Char} {kind : Kind} (plain : isPlain c = true)
    (sound : kind.isSound = true)
    (index : Nat) (rest : List Char) :
    TokenFront index c rest (mark kind index) :=
  tokenFront_of_plainFront (.cons plain (.nothing rest))
    fun problem owned => absurd owned (Token.not_owns sound problem)

theorem tokenFront_word
    {c : Char} {kind : Kind} {letters : String}
    (first : isPlain c = true)
    (others : ∀ d ∈ letters.toList, isPlain d = true)
    (sound : kind.isSound = true)
    (index : Nat) (rest : List Char) :
    TokenFront index c rest (word kind letters index rest) := by
  have outside := readLetters_breaksOutside others (index + 1) rest
  unfold word
  cases read : readLetters (index + 1) letters.toList rest with
  | ok done =>
      rw [read] at outside
      have plain : PlainFront (c :: rest) (letters.length + 1) := by
        rw [← String.length_toList]
        exact outside.cons first
      have stop : index + 1 + letters.length = index + (letters.length + 1) := by omega
      dsimp only
      rw [stop]
      exact tokenFront_of_plainFront plain
        fun problem owned => absurd owned (Token.not_owns sound problem)
  | error problem =>
      rw [read] at outside
      have one : PlainFront (c :: rest) 1 := .cons first (.nothing rest)
      refine ⟨rfl, outside.le, ?_, nofun⟩
      intro other owned _
      cases owned with
      | text kind => cases kind
      | broken kind =>
          cases kind
          exact one.foundOutside_drop outside
      | value kind => cases kind

theorem lt_of_skimText
    {index read count stop : Nat} {cs : List Char}
    (skimmed : skimText index read cs = .ok (count, stop)) :
    index < stop := by
  fun_induction skimText index read cs with
  | case1 => cases skimmed
  | case2 =>
      cases skimmed
      exact Nat.lt_succ_self _
  | case3 => cases skimmed
  | case4 => cases skimmed
  | case5 index read rest unit isUnit inductionHypothesis =>
      have later := inductionHypothesis skimmed
      omega
  | case6 index read c rest notUnit simple inductionHypothesis =>
      have later := inductionHypothesis skimmed
      omega
  | case7 => cases skimmed
  | case8 => cases skimmed
  | case9 index read c rest notQuote notLast notUnit notEscape printed inductionHypothesis =>
      have later := inductionHypothesis skimmed
      omega

theorem tokenFront_quotedText (index : Nat) (rest : List Char) :
    TokenFront index '"' rest (quotedText index rest) := by
  rcases readText_cases (index + 1) [] 0 rest with
    ⟨problem, broken, cause⟩ | ⟨text, spelled, more, spells, rfl⟩
  · have own {start stop : Nat} {skimmed : Option Problem} (other : Problem)
        (owned : Token.Owns ⟨.brokenText problem skimmed, start, stop⟩ other)
        (notText : other.cause.inText = false) :
        FoundOutside index ('"' :: rest) other.index := by
      cases owned with
      | text kind =>
          cases kind
          rw [cause] at notText
          cases notText
      | broken kind => cases kind
      | value kind => cases kind
    unfold quotedText
    rw [broken]
    cases skim : skimText (index + 1) 0 rest with
    | ok read =>
        have longer := lt_of_skimText skim
        refine ⟨rfl, ?_, own, nofun⟩
        dsimp only
        omega
    | error skimmed => exact ⟨rfl, Nat.lt_succ_self index, own, nofun⟩
  · have size :
        index + 1 + Text.byteLength spelled + 1 =
          index + Text.byteLength ('"' :: spelled ++ ['"']) := by
      rw [List.cons_append, Text.byteLength, Text.byteLength_append]
      have quote : '"'.utf8Size = 1 := rfl
      have last : Text.byteLength ['"'] = 1 := rfl
      omega
    unfold quotedText
    rw [readText_spelled spells]
    refine ⟨rfl, ?_, ?_, ?_⟩
    · dsimp only
      omega
    · intro other owned _
      exact absurd owned (Token.not_owns rfl other)
    · intro _ _
      refine ⟨'"' :: spelled ++ ['"'], ?_, spells.structural, size⟩
      dsimp only
      rw [Nat.zero_add, ← List.drop_drop, List.drop_left, List.append_assoc]
      rfl

theorem tokenFront_readToken (index : Nat) (c : Char) (rest : List Char) :
    TokenFront index c rest (readToken index c rest) := by
  unfold readToken
  split
  iterate 6 exact tokenFront_mark rfl rfl index rest
  iterate 3 exact tokenFront_word rfl (List.all_eq_true.mp (by decide +kernel)) rfl index rest
  · exact tokenFront_quotedText index rest
  · split
    · rename_i first
      have outside := readNumber_breaksOutside first index rest
      cases read : readNumber index (c :: rest) with
      | ok result =>
          obtain ⟨number, length⟩ := result
          rw [read] at outside
          obtain ⟨front, pos⟩ := outside
          obtain ⟨count, rfl⟩ := Nat.exists_eq_add_of_lt pos
          rw [Nat.zero_add] at front ⊢
          refine tokenFront_of_plainFront front.plain ?_
          intro problem owned
          cases owned with
          | text kind => cases kind
          | broken kind => cases kind
          | value kind refused =>
              cases kind
              exact front.foundOutside_of_value refused
      | error problem =>
          rw [read] at outside
          refine ⟨rfl, Nat.lt_succ_self index, ?_, nofun⟩
          intro other owned _
          cases owned with
          | text kind => cases kind
          | broken kind =>
              cases kind
              exact outside
          | value kind => cases kind
    · exact ⟨rfl, Nat.lt_succ_self index,
        fun problem owned _ => absurd owned (Token.not_owns rfl problem), nofun⟩

/-! ## The run -/

/-- What taking a token can lead to: a token in itself broken or out of place is refused for that,
and a broken quoted text is never taken. -/
def Token.Leads (token : Token) : Except Problem Nesting → Prop
  | .ok _ => token.isBrokenText = false
  | .error problem =>
      problem.cause.isContent = true ∨ problem.index = token.peekIndex ∨ token.Owns problem

namespace Nesting

theorem leads_takeValue (frames : List Frame) (token : Token) :
    token.Leads (takeValue frames token) := by
  obtain ⟨kind, start, stop⟩ := token
  cases kind with
  | null => rfl
  | bool value => rfl
  | text value => rfl
  | number number =>
      unfold takeValue
      dsimp only
      cases read : number.value with
      | ok value => rfl
      | error problem => exact .inr (.inr (.value rfl read))
  | openArray =>
      unfold takeValue
      dsimp only [enter]
      split
      · rfl
      · exact .inr (.inl rfl)
  | openObject =>
      unfold takeValue
      dsimp only [enter]
      split
      · rfl
      · exact .inr (.inl rfl)
  | brokenText problem skimmed => exact .inr (.inr (.text rfl))
  | broken problem skimmed => exact .inr (.inr (.broken rfl))
  | _ => exact .inr (.inl rfl)

theorem leads_takeKey (frames : List Frame) (token : Token) :
    token.Leads (takeKey frames token) := by
  obtain ⟨kind, start, stop⟩ := token
  cases kind with
  | text key =>
      unfold takeKey
      split
      · rename_i isText
        cases isText
        split
        all_goals rfl
      · rename_i isBroken
        cases isBroken
      · exact .inr (.inl rfl)
  | brokenText problem skimmed => exact .inr (.inr (.text rfl))
  | _ => exact .inr (.inl rfl)

theorem leads_takeSeparator (frames : List Frame) (token : Token) :
    token.Leads (takeSeparator frames token) := by
  obtain ⟨kind, start, stop⟩ := token
  unfold takeSeparator
  split
  all_goals first | exact .inr (.inl rfl) | skip
  all_goals
    rename_i isKind
    cases isKind
    rfl

theorem leads_step (nesting : Nesting) (token : Token) : token.Leads (nesting.step token) := by
  have value := leads_takeValue nesting.frames token
  have key := leads_takeKey nesting.frames token
  have taken {after : Nesting} {kind : Kind} (isKind : token.kind = kind)
      (sound : kind.isSound = true) : token.Leads (.ok after) := by
    change token.isBrokenText = false
    unfold Token.isBrokenText
    split
    · rename_i isBroken
      rw [← isKind, isBroken] at sound
      cases sound
    · rfl
  unfold step
  split
  case h_1 => exact value
  case h_2 =>
    split
    · exact taken ‹_› rfl
    · exact .inr (.inl rfl)
    · exact value
  case h_3 =>
    split
    · exact .inr (.inl rfl)
    · exact value
  case h_4 =>
    split
    · exact taken ‹_› rfl
    · exact .inr (.inl rfl)
    · exact key
  case h_5 =>
    split
    · exact .inr (.inl rfl)
    · exact .inr (.inl rfl)
    · exact key
  case h_6 =>
    split
    · exact taken ‹_› rfl
    · exact .inr (.inl rfl)
    · exact .inr (.inl rfl)
  case h_7 => exact leads_takeSeparator nesting.frames token
  case h_8 => exact .inl rfl

end Nesting

theorem foldlM_cons_error
    {nesting : Nesting} {token : Token} {more : List Token} {problem : Problem}
    (stops : (token :: more).foldlM Nesting.step nesting = .error problem) :
    nesting.step token = .error problem ∨
      ∃ next,
        nesting.step token = .ok next ∧ more.foldlM Nesting.step next = .error problem := by
  rw [List.foldlM_cons] at stops
  cases taken : nesting.step token with
  | error other =>
      rw [taken] at stops
      cases stops
      exact .inl rfl
  | ok next =>
      rw [taken] at stops
      exact .inr ⟨next, rfl, stops⟩

theorem TokenFront.foundOutside_of_step
    {index : Nat} {c : Char} {rest : List Char} {read : Token × Nat}
    {nesting : Nesting} {problem : Problem}
    (front : TokenFront index c rest read)
    (refused : nesting.step read.1 = .error problem)
    (form : problem.cause.isContent = false)
    (notText : problem.cause.inText = false) :
    FoundOutside index (c :: rest) problem.index := by
  have leads := nesting.leads_step read.1
  rw [refused] at leads
  rcases leads with content | place | owned
  · rw [form] at content
    cases content
  · rw [place, front.peekIndex]
    exact .oneByteOn (List.cons_ne_nil c rest) index
  · exact front.own problem owned notText

theorem isPlain_of_isSpace {c : Char} (space : isSpace c = true) : isPlain c = true := by
  simp only [isSpace, Bool.or_eq_true, beq_iff_eq] at space
  rcases space with ((rfl | rfl) | rfl) | rfl
  all_goals rfl

/-- Without a broken quoted text the run stops outside of quoted texts. -/
theorem foundOutside_of_foldlM
    {index : Nat} {cs : List Char} {nesting : Nesting} {problem : Problem}
    (stops : (tokensFrom index cs).foldlM Nesting.step nesting = .error problem)
    (form : problem.cause.isContent = false)
    (notText : problem.cause.inText = false) :
    FoundOutside index cs problem.index := by
  induction index, cs using tokensFrom.induct generalizing nesting with
  | case1 index =>
      rw [tokensFrom] at stops
      have leads := nesting.leads_step ⟨.finished, index, index⟩
      rcases foldlM_cons_error stops with refused | ⟨next, _, ended⟩
      · rw [refused] at leads
        rcases leads with content | place | owned
        · rw [form] at content
          cases content
        · rw [place, Token.peekIndex, Nat.min_eq_left (Nat.le_succ index)]
          exact .here index []
        · exact absurd owned (Token.not_owns rfl problem)
      · cases ended
  | case2 index c rest space inductionHypothesis =>
      rw [tokensFrom_space space] at stops
      have one : PlainFront (c :: rest) 1 := .cons (isPlain_of_isSpace space) (.nothing rest)
      exact one.foundOutside_drop (inductionHypothesis stops)
  | case3 index c rest solid token count read last =>
      have front := tokenFront_readToken index c rest
      rw [read] at front
      rw [tokensFrom, if_neg solid, read] at stops
      simp only [last, if_true] at stops
      rcases foldlM_cons_error stops with refused | ⟨next, _, ended⟩
      · exact front.foundOutside_of_step refused form notText
      · cases ended
  | case4 index c rest solid token count read onward inductionHypothesis =>
      have front := tokenFront_readToken index c rest
      rw [read] at front
      rw [Bool.not_eq_true] at solid onward
      rw [tokensFrom_readToken solid read onward] at stops
      rcases foldlM_cons_error stops with refused | ⟨next, taken, later⟩
      · exact front.foundOutside_of_step refused form notText
      · have leads := nesting.leads_step token
        rw [taken] at leads
        obtain ⟨text, whole, structural, stop⟩ := front.onward onward leads
        have found := inductionHypothesis later
        dsimp only at stop whole
        rw [stop] at found
        rw [whole]
        exact .append structural found

theorem foundOutside_of_firstProblem
    {text : List Char} {problem : Problem}
    (found : firstProblem text = some problem)
    (form : problem.cause.isContent = false)
    (notText : problem.cause.inText = false) :
    FoundOutside 0 text problem.index := by
  unfold firstProblem at found
  split at found
  · cases found
  · rename_i stops
    cases found
    exact foundOutside_of_foldlM stops form notText

end Heredoc.Json
