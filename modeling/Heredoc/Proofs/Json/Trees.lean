import Heredoc.Proofs.Json.Numerals
import Mathlib.Data.List.Chain
import Mathlib.Data.List.Forall2

/-!
# JSON values and all their texts

A tree is a JSON value as the grammar has it. It is written as a list of symbols (`Tree.symbols`),
each spelled in one of its ways, with any white space around them (`Lays`). Main statement: every
such text, and every beginning of one, is read as the tokens of its symbols (`Lays.lexes`).
-/

namespace Heredoc.Json

/-- A JSON value; numbers as they are written, texts as they are meant. -/
inductive Tree where
  | null
  | bool (value : Bool)
  | number (numeral : Numeral)
  | text (value : String)
  | array (items : List Tree)
  | object (members : List (String × Tree))

/-- A value as far as it is one piece, or a mark around values. -/
inductive Symbol where
  | openArray
  | closeArray
  | openObject
  | closeObject
  | comma
  | colon
  | null
  | bool (value : Bool)
  | number (numeral : Numeral)
  /-- A quoted text, be it a value or a key. -/
  | text (value : String)

namespace Symbol

/-- The ways to write a symbol. -/
inductive Spells : Symbol → List Char → Prop where
  | openArray : Spells .openArray ['[']
  | closeArray : Spells .closeArray [']']
  | openObject : Spells .openObject ['\x7b']
  | closeObject : Spells .closeObject ['\x7d']
  | comma : Spells .comma [',']
  | colon : Spells .colon [':']
  | null : Spells .null ['n', 'u', 'l', 'l']
  | yes : Spells (.bool true) ['t', 'r', 'u', 'e']
  | no : Spells (.bool false) ['f', 'a', 'l', 's', 'e']
  | number {numeral : Numeral} {written : List Char} (spelled : numeral.Spells written) :
      Spells (.number numeral) written
  | text {value : String} {spelled : List Char} (spells : SpellsText value.toList spelled) :
      Spells (.text value) ('"' :: spelled ++ ['"'])

/-- The token is read from the symbol. -/
inductive Reads : Symbol → Token → Prop where
  | openArray {start stop : Nat} : Reads .openArray ⟨.openArray, start, stop⟩
  | closeArray {start stop : Nat} : Reads .closeArray ⟨.closeArray, start, stop⟩
  | openObject {start stop : Nat} : Reads .openObject ⟨.openObject, start, stop⟩
  | closeObject {start stop : Nat} : Reads .closeObject ⟨.closeObject, start, stop⟩
  | comma {start stop : Nat} : Reads .comma ⟨.comma, start, stop⟩
  | colon {start stop : Nat} : Reads .colon ⟨.colon, start, stop⟩
  | null {start stop : Nat} : Reads .null ⟨.null, start, stop⟩
  | bool {value : Bool} {start stop : Nat} : Reads (.bool value) ⟨.bool value, start, stop⟩
  | number {numeral : Numeral} {begin ending start stop : Nat} :
      Reads (.number numeral) ⟨.number (numeral.number begin ending), start, stop⟩
  | text {value : String} {start stop : Nat} : Reads (.text value) ⟨.text value, start, stop⟩

def isNumber : Symbol → Bool
  | .number _ => true
  | _ => false

end Symbol

/-- The text is the symbols, with white space around and between them. -/
inductive Lays : List Symbol → List Char → Prop where
  | nil {blank : List Char} (spaces : ∀ c ∈ blank, isSpace c = true) : Lays [] blank
  | cons {blank spelled text : List Char} {symbol : Symbol} {symbols : List Symbol}
      (spaces : ∀ c ∈ blank, isSpace c = true)
      (spells : symbol.Spells spelled)
      (others : Lays symbols text) :
      Lays (symbol :: symbols) (blank ++ (spelled ++ text))

namespace Lays

theorem spaces_append
    {blank text : List Char} {symbols : List Symbol}
    (spaces : ∀ c ∈ blank, isSpace c = true)
    (laid : Lays symbols text) :
    Lays symbols (blank ++ text) := by
  cases laid with
  | nil others =>
      apply Lays.nil
      intro c member
      exact (List.mem_append.mp member).elim (spaces c) (others c)
  | cons others spells later =>
      rw [← List.append_assoc]
      refine .cons ?_ spells later
      intro c member
      exact (List.mem_append.mp member).elim (spaces c) (others c)

theorem append
    {first second : List Symbol} {text other : List Char}
    (front : Lays first text)
    (back : Lays second other) :
    Lays (first ++ second) (text ++ other) := by
  induction front with
  | nil spaces => exact back.spaces_append spaces
  | cons spaces spells others inductionHypothesis =>
      rw [List.append_assoc, List.append_assoc]
      exact .cons spaces spells inductionHypothesis

theorem append_spaces
    {blank text : List Char} {symbols : List Symbol}
    (laid : Lays symbols text)
    (spaces : ∀ c ∈ blank, isSpace c = true) :
    Lays symbols (text ++ blank) := by
  have joined := laid.append (.nil spaces)
  rwa [List.append_nil] at joined

theorem exists_of_cons
    {symbol : Symbol} {symbols : List Symbol} {text : List Char}
    (laid : Lays (symbol :: symbols) text) :
    ∃ blank spelled more,
      text = blank ++ (spelled ++ more) ∧ (∀ c ∈ blank, isSpace c = true) ∧
        symbol.Spells spelled ∧ Lays symbols more := by
  cases laid with
  | cons spaces spells others => exact ⟨_, _, _, rfl, spaces, spells, others⟩

theorem exists_of_append
    {first second : List Symbol} {text : List Char}
    (laid : Lays (first ++ second) text) :
    ∃ front back, text = front ++ back ∧ Lays first front ∧ Lays second back := by
  induction first generalizing text with
  | nil => exact ⟨[], text, rfl, .nil nofun, laid⟩
  | cons symbol first inductionHypothesis =>
      obtain ⟨blank, spelled, more, rfl, spaces, spells, others⟩ := laid.exists_of_cons
      obtain ⟨front, back, rfl, isFront, isBack⟩ := inductionHypothesis others
      refine ⟨blank ++ (spelled ++ front), back, ?_, .cons spaces spells isFront, isBack⟩
      simp only [List.append_assoc]

theorem single
    {symbol : Symbol} {spelled : List Char} (spells : symbol.Spells spelled) :
    Lays [symbol] spelled := by
  have bare : Lays [symbol] ([] ++ (spelled ++ [])) := .cons nofun spells (.nil nofun)
  rwa [List.append_nil] at bare

end Lays

/-! ## The symbols of a tree -/

/-- What stands in front of an item or member. -/
def separator (first : Bool) : List Symbol :=
  if first then [] else [.comma]

namespace Tree

mutual

/-- The symbols that a value is written with. -/
def symbols : Tree → List Symbol
  | .null => [.null]
  | .bool value => [.bool value]
  | .number numeral => [.number numeral]
  | .text value => [.text value]
  | .array items => .openArray :: (symbolsOfItems true items ++ [.closeArray])
  | .object members => .openObject :: (symbolsOfMembers true members ++ [.closeObject])

/-- Items, a comma in front of each but the first. -/
def symbolsOfItems (first : Bool) : List Tree → List Symbol
  | [] => []
  | item :: items => separator first ++ (item.symbols ++ symbolsOfItems false items)

/-- Members, a comma in front of each but the first. -/
def symbolsOfMembers (first : Bool) : List (String × Tree) → List Symbol
  | [] => []
  | (key, value) :: members =>
      separator first ++
        (.text key :: .colon :: (value.symbols ++ symbolsOfMembers false members))

end

mutual

/-- How deep arrays and objects are nested. -/
def depth : Tree → Nat
  | .array items => depthOfItems items + 1
  | .object members => depthOfMembers members + 1
  | _ => 0

def depthOfItems : List Tree → Nat
  | [] => 0
  | item :: items => max item.depth (depthOfItems items)

def depthOfMembers : List (String × Tree) → Nat
  | [] => 0
  | (_, value) :: members => max value.depth (depthOfMembers members)

end

/-- `part` stands somewhere in the tree. -/
inductive Part (part : Tree) : Tree → Prop where
  | self : Part part part
  | item {items : List Tree} {item : Tree} (member : item ∈ items) (inside : Part part item) :
      Part part (.array items)
  | member {members : List (String × Tree)} {key : String} {value : Tree}
      (member : (key, value) ∈ members) (inside : Part part value) :
      Part part (.object members)

/-- No object of the tree, at any depth, has two members with the same key. -/
def Distinct (tree : Tree) : Prop :=
  ∀ members, Part (.object members) tree → (members.map Prod.fst).Nodup

/-- All numbers of the tree, as they are spelled, are read as values of 64 bits. -/
def InRange (tree : Tree) : Prop :=
  ∀ numeral, Part (.number numeral) tree → numeral.InRange

theorem distinct_number (numeral : Numeral) : (Tree.number numeral).Distinct :=
  nofun

theorem distinct_array_iff {items : List Tree} :
    (Tree.array items).Distinct ↔ ∀ item ∈ items, item.Distinct := by
  constructor
  · intro distinct item member members inside
    exact distinct members (.item member inside)
  · intro distinct members inside
    cases inside with
    | item member inside => exact distinct _ member members inside

theorem distinct_object_iff {members : List (String × Tree)} :
    (Tree.object members).Distinct ↔
      (members.map Prod.fst).Nodup ∧ ∀ key value, (key, value) ∈ members → value.Distinct := by
  constructor
  · intro distinct
    refine ⟨distinct members .self, ?_⟩
    intro key value member others inside
    exact distinct others (.member member inside)
  · intro ⟨distinct, values⟩ others inside
    cases inside with
    | self => exact distinct
    | member member inside => exact values _ _ member others inside

theorem inRange_number_iff {numeral : Numeral} :
    (Tree.number numeral).InRange ↔ numeral.InRange := by
  constructor
  · intro inRange
    exact inRange numeral .self
  · intro inRange other inside
    cases inside
    exact inRange

theorem inRange_array_iff {items : List Tree} :
    (Tree.array items).InRange ↔ ∀ item ∈ items, item.InRange := by
  constructor
  · intro inRange item member numeral inside
    exact inRange numeral (.item member inside)
  · intro inRange numeral inside
    cases inside with
    | item member inside => exact inRange _ member numeral inside

theorem inRange_object_iff {members : List (String × Tree)} :
    (Tree.object members).InRange ↔ ∀ key value, (key, value) ∈ members → value.InRange := by
  constructor
  · intro inRange key value member numeral inside
    exact inRange numeral (.member member inside)
  · intro inRange numeral inside
    cases inside with
    | member member inside => exact inRange _ _ member numeral inside

end Tree

/-! ## Numbers stand apart -/

/-- Two numbers are not written side by side. -/
def Apart (symbol next : Symbol) : Prop :=
  symbol.isNumber = true → next.isNumber = false

/-- A number may be written in front of these symbols. -/
def FollowsNumber (symbols : List Symbol) : Prop :=
  ∀ symbol, symbols.head? = some symbol → symbol.isNumber = false

theorem isChain_append_of_followsNumber
    {left right : List Symbol}
    (leftApart : left.IsChain Apart) (rightApart : right.IsChain Apart)
    (follows : FollowsNumber right) :
    (left ++ right).IsChain Apart := by
  apply List.isChain_append.mpr
  refine ⟨leftApart, rightApart, ?_⟩
  intro symbol _ next first _
  exact follows next first

theorem isChain_cons_of_not_isNumber
    {symbol : Symbol} {symbols : List Symbol}
    (other : symbol.isNumber = false) (apart : symbols.IsChain Apart) :
    (symbol :: symbols).IsChain Apart := by
  apply List.isChain_cons.mpr
  refine ⟨?_, apart⟩
  intro next _ isNumber
  rw [other] at isNumber
  cases isNumber

theorem followsNumber_symbolsOfItems (items : List Tree) (rest : List Symbol)
    (follows : FollowsNumber rest) :
    FollowsNumber (Tree.symbolsOfItems false items ++ rest) := by
  cases items with
  | nil => exact follows
  | cons item items =>
      intro symbol first
      rw [Tree.symbolsOfItems] at first
      obtain rfl := Option.some.inj first
      rfl

theorem followsNumber_symbolsOfMembers (members : List (String × Tree)) (rest : List Symbol)
    (follows : FollowsNumber rest) :
    FollowsNumber (Tree.symbolsOfMembers false members ++ rest) := by
  cases members with
  | nil => exact follows
  | cons member members =>
      intro symbol first
      rw [Tree.symbolsOfMembers] at first
      obtain rfl := Option.some.inj first
      rfl

theorem isChain_separator_append
    {symbols : List Symbol} (first : Bool) (apart : symbols.IsChain Apart) :
    (separator first ++ symbols).IsChain Apart := by
  cases first with
  | true => exact apart
  | false => exact isChain_cons_of_not_isNumber rfl apart

mutual

theorem Tree.isChain_symbols (tree : Tree) : tree.symbols.IsChain Apart := by
  cases tree with
  | null => exact .singleton _
  | bool value => exact .singleton _
  | number numeral => exact .singleton _
  | text value => exact .singleton _
  | array items =>
      have inside := Tree.isChain_symbolsOfItems true items
      apply isChain_cons_of_not_isNumber rfl
      apply isChain_append_of_followsNumber inside (.singleton _)
      intro symbol first
      obtain rfl := Option.some.inj first
      rfl
  | object members =>
      have inside := Tree.isChain_symbolsOfMembers true members
      apply isChain_cons_of_not_isNumber rfl
      apply isChain_append_of_followsNumber inside (.singleton _)
      intro symbol first
      obtain rfl := Option.some.inj first
      rfl

theorem Tree.isChain_symbolsOfItems (first : Bool) (items : List Tree) :
    (Tree.symbolsOfItems first items).IsChain Apart := by
  cases items with
  | nil => exact .nil
  | cons item items =>
      have here := Tree.isChain_symbols item
      have later := Tree.isChain_symbolsOfItems false items
      have follows := followsNumber_symbolsOfItems items [] (fun _ first => by cases first)
      rw [List.append_nil] at follows
      rw [Tree.symbolsOfItems]
      exact isChain_separator_append first (isChain_append_of_followsNumber here later follows)

theorem Tree.isChain_symbolsOfMembers (first : Bool) (members : List (String × Tree)) :
    (Tree.symbolsOfMembers first members).IsChain Apart := by
  cases members with
  | nil => exact .nil
  | cons member members =>
      obtain ⟨key, value⟩ := member
      have here := Tree.isChain_symbols value
      have later := Tree.isChain_symbolsOfMembers false members
      have follows := followsNumber_symbolsOfMembers members [] (fun _ first => by cases first)
      rw [List.append_nil] at follows
      rw [Tree.symbolsOfMembers]
      apply isChain_separator_append first
      apply isChain_cons_of_not_isNumber rfl
      apply isChain_cons_of_not_isNumber rfl
      exact isChain_append_of_followsNumber here later follows

end

/-! ## Symbols and layouts are read as their tokens -/

theorem toNat_lt_of_isDigit {c : Char} (digit : c.isDigit = true) : c.toNat < 128 :=
  Nat.lt_of_le_of_lt (Char.isDigit_iff_toNat.mp digit).2 (by decide)

theorem SpellsExponent.toNat_lt
    {exponent : Option (Bool × Digits)} {text : List Char}
    (spelled : SpellsExponent exponent text) :
    ∀ c ∈ text, c.toNat < 128 := by
  intro c member
  cases spelled with
  | absent => cases member
  | @present letter negative sign digits isLetter signed =>
      rw [List.mem_cons, List.mem_append] at member
      rcases member with rfl | inSign | inDigits
      · rcases isLetter with rfl | rfl
        all_goals decide
      · cases signed with
        | minus =>
            rw [List.mem_singleton.mp inSign]
            decide
        | plus =>
            rw [List.mem_singleton.mp inSign]
            decide
        | nothing => cases inSign
      · exact toNat_lt_of_isDigit (digits.digits c inDigits)

theorem Numeral.Spells.toNat_lt
    {numeral : Numeral} {text : List Char} (spelled : numeral.Spells text) :
    ∀ c ∈ text, c.toNat < 128 := by
  obtain ⟨exponentSpelled⟩ := spelled
  intro c member
  simp only [List.mem_append] at member
  rcases member with inSign | inWhole | inFraction | inExponent
  · unfold Numeral.sign at inSign
    split at inSign
    · rw [List.mem_singleton.mp inSign]
      decide
    · cases inSign
  · exact toNat_lt_of_isDigit (numeral.isWhole.digits c inWhole)
  · cases shown : numeral.fraction with
    | none =>
        rw [shown] at inFraction
        cases inFraction
    | some digits =>
        rw [shown, Numeral.fractionText, List.mem_cons] at inFraction
        rcases inFraction with rfl | inDigits
        · decide
        · exact toNat_lt_of_isDigit (digits.digits c inDigits)
  · exact exponentSpelled.toNat_lt c inExponent

theorem IsToken.forall₂
    {symbol : Symbol} {kind : Kind} {tokens : List Token}
    (reads : ∀ start stop, symbol.Reads ⟨kind, start, stop⟩)
    (isToken : IsToken kind tokens) :
    List.Forall₂ Symbol.Reads [symbol] tokens := by
  obtain ⟨start, stop, rfl⟩ := isToken
  exact .cons (reads start stop) .nil

theorem lexes_markSymbol
    {symbol : Symbol} {kind : Kind} {c : Char} {rest : List Char}
    (reads : ∀ start stop, symbol.Reads ⟨kind, start, stop⟩)
    (marks : ∀ index, readToken index c rest = mark kind index)
    (solid : isSpace c = false)
    (goesOn : ∀ index, Token.isLast ⟨kind, index, index + 1⟩ = false)
    (ascii : c.utf8Size = 1) :
    Lexes (List.Forall₂ Symbol.Reads [symbol]) [c] rest :=
  (lexes_mark marks solid goesOn ascii).imp fun _ => IsToken.forall₂ reads

theorem Symbol.Spells.lexes
    {symbol : Symbol} {text rest : List Char}
    (spells : symbol.Spells text)
    (stops : symbol.isNumber = true → StopsNumber rest) :
    Lexes (List.Forall₂ Symbol.Reads [symbol]) text rest := by
  cases spells with
  | openArray =>
      exact lexes_markSymbol (fun _ _ => .openArray) (fun _ => rfl) rfl (fun _ => rfl) rfl
  | closeArray =>
      exact lexes_markSymbol (fun _ _ => .closeArray) (fun _ => rfl) rfl (fun _ => rfl) rfl
  | openObject =>
      exact lexes_markSymbol (fun _ _ => .openObject) (fun _ => rfl) rfl (fun _ => rfl) rfl
  | closeObject =>
      exact lexes_markSymbol (fun _ _ => .closeObject) (fun _ => rfl) rfl (fun _ => rfl) rfl
  | comma =>
      exact lexes_markSymbol (fun _ _ => .comma) (fun _ => rfl) rfl (fun _ => rfl) rfl
  | colon =>
      exact lexes_markSymbol (fun _ _ => .colon) (fun _ => rfl) rfl (fun _ => rfl) rfl
  | null =>
      have lexed : Lexes (IsToken .null) ('n' :: "ull".toList) rest :=
        lexes_word (fun _ _ => rfl) rfl (fun _ _ => rfl) rfl
      exact lexed.imp fun _ => IsToken.forall₂ fun _ _ => .null
  | yes =>
      have lexed : Lexes (IsToken (.bool true)) ('t' :: "rue".toList) rest :=
        lexes_word (fun _ _ => rfl) rfl (fun _ _ => rfl) rfl
      exact lexed.imp fun _ => IsToken.forall₂ fun _ _ => .bool
  | no =>
      have lexed : Lexes (IsToken (.bool false)) ('f' :: "alse".toList) rest :=
        lexes_word (fun _ _ => rfl) rfl (fun _ _ => rfl) rfl
      exact lexed.imp fun _ => IsToken.forall₂ fun _ _ => .bool
  | @number numeral _ spelled =>
      intro index
      obtain ⟨start, read⟩ := tokensFrom_numeral spelled (stops rfl) index
      rw [Text.byteLength_of_lt spelled.toNat_lt]
      exact ⟨_, .cons .number .nil, read⟩
  | @text value spelled spelling =>
      have lexed := lexes_spelled spelling rest
      rw [String.ofList_toList] at lexed
      exact lexed.imp fun _ => IsToken.forall₂ fun _ _ => .text

theorem stopsNumber_cons {c : Char} (other : continuesNumber c = false) (rest : List Char) :
    StopsNumber (c :: rest) := by
  intro first same
  rw [← Option.some.inj same]
  exact other

theorem stopsNumber_spaces
    {blank rest : List Char}
    (spaces : ∀ c ∈ blank, isSpace c = true)
    (stops : StopsNumber rest) :
    StopsNumber (blank ++ rest) := by
  cases blank with
  | nil => exact stops
  | cons c blank =>
      exact stopsNumber_cons (continuesNumber_of_isSpace (spaces c List.mem_cons_self)) _

theorem Symbol.Spells.stopsNumber
    {symbol : Symbol} {text : List Char}
    (spells : symbol.Spells text)
    (other : symbol.isNumber = false)
    (rest : List Char) :
    StopsNumber (text ++ rest) := by
  cases spells with
  | number spelled => cases other
  | _ => exact stopsNumber_cons rfl _

/-- White space stops a number, and so does a symbol that is none. -/
theorem Lays.stopsNumber
    {symbols : List Symbol} {text rest : List Char}
    (laid : Lays symbols text)
    (follows : FollowsNumber symbols)
    (stops : StopsNumber rest) :
    StopsNumber (text ++ rest) := by
  cases laid with
  | nil spaces => exact stopsNumber_spaces spaces stops
  | @cons blank spelled text symbol symbols spaces spells others =>
      rw [List.append_assoc, List.append_assoc]
      exact stopsNumber_spaces spaces (spells.stopsNumber (follows symbol rfl) _)

/-- A text of symbols is read as tokens of these symbols, and what follows is read after it. -/
theorem Lays.lexes
    {symbols : List Symbol} {text rest : List Char}
    (laid : Lays symbols text)
    (apart : symbols.IsChain Apart)
    (stops : StopsNumber rest) :
    Lexes (List.Forall₂ Symbol.Reads symbols) text rest := by
  induction laid with
  | nil spaces =>
      exact lexes_spaces spaces .nil rest
  | @cons blank spelled text symbol symbols spaces spells others inductionHypothesis =>
      obtain ⟨next, later⟩ := List.isChain_cons.mp apart
      have here : Lexes (List.Forall₂ Symbol.Reads [symbol]) spelled (text ++ rest) := by
        apply spells.lexes
        intro isNumber
        exact others.stopsNumber (fun _ first => next _ first isNumber) stops
      have both := here.append (inductionHypothesis later)
      have inFront : Lexes (List.Forall₂ Symbol.Reads []) blank (spelled ++ text ++ rest) :=
        lexes_spaces spaces .nil _
      apply (inFront.append both).imp
      rintro tokens ⟨_, _, blanks, ⟨_, _, one, more, rfl⟩, rfl⟩
      cases blanks
      exact List.rel_append one more

end Heredoc.Json
