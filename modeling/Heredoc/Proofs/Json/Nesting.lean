import Heredoc.Proofs.Json.Trees
import Heredoc.Validator.Basic

/-!
# What the check does with a whole value

The tokens of a value lead the stack machine from before the value to after it, with the same frames
open, whenever no key of it comes again, its numbers are in range and it is not nested too deeply
(`Tree.runs`). The induction is on the tree: each object keeps the keys of its own members on the
stack while the values of these members are read.
-/

namespace Heredoc.Json

open Nesting

/-! ## Runs -/

/-- Whatever tokens the symbols are read as, these lead from the one nesting to the other. -/
inductive Runs : List Symbol → Nesting → Nesting → Prop where
  | nil (nesting : Nesting) : Runs [] nesting nesting
  | cons {symbol : Symbol} {symbols : List Symbol} {before middle after : Nesting}
      (steps : ∀ token, symbol.Reads token → before.step token = .ok middle)
      (later : Runs symbols middle after) :
      Runs (symbol :: symbols) before after

namespace Runs

theorem foldlM
    {symbols : List Symbol} {before after : Nesting} {tokens : List Token}
    (runs : Runs symbols before after)
    (reads : List.Forall₂ Symbol.Reads symbols tokens) :
    tokens.foldlM Nesting.step before = .ok after := by
  induction runs generalizing tokens with
  | nil nesting =>
      cases reads
      rfl
  | cons steps later inductionHypothesis =>
      cases reads with
      | cons first others =>
          rw [List.foldlM_cons, steps _ first]
          exact inductionHypothesis others

theorem single
    {symbol : Symbol} {before after : Nesting}
    (steps : ∀ token, symbol.Reads token → before.step token = .ok after) :
    Runs [symbol] before after :=
  .cons steps (.nil after)

theorem append
    {first second : List Symbol} {before middle after : Nesting}
    (front : Runs first before middle)
    (back : Runs second middle after) :
    Runs (first ++ second) before after := by
  induction front with
  | nil nesting => exact back
  | cons steps later inductionHypothesis => exact .cons steps (inductionHypothesis back)

theorem exists_of_append
    {first second : List Symbol} {before after : Nesting}
    (runs : Runs (first ++ second) before after) :
    ∃ middle, Runs first before middle ∧ Runs second middle after := by
  induction first generalizing before with
  | nil => exact ⟨before, .nil before, runs⟩
  | cons symbol first inductionHypothesis =>
      cases runs with
      | cons steps later =>
          obtain ⟨middle, front, back⟩ := inductionHypothesis later
          exact ⟨middle, .cons steps front, back⟩

end Runs

/-! ## Single steps -/

/-- A value may come. -/
inductive TakesValue : Expecting → Prop where
  | value : TakesValue .value
  | itemOrClose : TakesValue .itemOrClose
  | item : TakesValue .item

theorem step_of_takesValue
    {symbol : Symbol} {token : Token} {expecting : Expecting}
    (reads : symbol.Reads token) (value : symbol ≠ .closeArray)
    (takes : TakesValue expecting) (frames : List Frame) :
    Nesting.step ⟨frames, expecting⟩ token = takeValue frames token := by
  cases takes with
  | value => rfl
  | itemOrClose =>
      cases reads with
      | closeArray => exact absurd rfl value
      | _ => rfl
  | item =>
      cases reads with
      | closeArray => exact absurd rfl value
      | _ => rfl

/-- Inside an array: before its first item, or after an item. -/
def awaitingItem (first : Bool) : Expecting :=
  if first then .itemOrClose else .separator

/-- Inside an object: before its first member, or after a member. -/
def awaitingMember (first : Bool) : Expecting :=
  if first then .keyOrClose else .separator

theorem exists_runs_separator (first : Bool) (frames : List Frame) :
    ∃ expecting,
      TakesValue expecting ∧
        Runs (separator first) ⟨.array :: frames, awaitingItem first⟩
          ⟨.array :: frames, expecting⟩ := by
  cases first with
  | true => exact ⟨.itemOrClose, .itemOrClose, .nil _⟩
  | false =>
      refine ⟨.item, .item, .single ?_⟩
      intro token reads
      cases reads
      rfl

theorem runs_key
    {key : String} {seen : List String}
    (fresh : key ∉ seen) (first : Bool) (frames : List Frame) :
    Runs (separator first ++ [.text key, .colon]) ⟨.object seen :: frames, awaitingMember first⟩
      ⟨.object (key :: seen) :: frames, .value⟩ := by
  have takesKey (expecting : Expecting) (takes : expecting = .keyOrClose ∨ expecting = .key) :
      Runs [.text key] ⟨.object seen :: frames, expecting⟩
        ⟨.object (key :: seen) :: frames, .colon⟩ := by
    apply Runs.single
    intro token reads
    cases reads
    rcases takes with rfl | rfl
    all_goals exact if_neg fresh
  have takesColon :
      Runs [.colon] ⟨.object (key :: seen) :: frames, .colon⟩
        ⟨.object (key :: seen) :: frames, .value⟩ := by
    apply Runs.single
    intro token reads
    cases reads
    rfl
  cases first with
  | true => exact (takesKey .keyOrClose (.inl rfl)).append takesColon
  | false =>
      have takesComma :
          Runs [.comma] ⟨.object seen :: frames, .separator⟩ ⟨.object seen :: frames, .key⟩ := by
        apply Runs.single
        intro token reads
        cases reads
        rfl
      exact takesComma.append ((takesKey .key (.inr rfl)).append takesColon)

theorem runs_openArray
    {expecting : Expecting} (takes : TakesValue expecting)
    (frames : List Frame) (shallow : frames.length < depthLimit) :
    Runs [.openArray] ⟨frames, expecting⟩ ⟨.array :: frames, awaitingItem true⟩ := by
  apply Runs.single
  intro token reads
  rw [step_of_takesValue reads nofun takes]
  cases reads
  exact if_pos shallow

theorem runs_openObject
    {expecting : Expecting} (takes : TakesValue expecting)
    (frames : List Frame) (shallow : frames.length < depthLimit) :
    Runs [.openObject] ⟨frames, expecting⟩ ⟨.object [] :: frames, awaitingMember true⟩ := by
  apply Runs.single
  intro token reads
  rw [step_of_takesValue reads nofun takes]
  cases reads
  exact if_pos shallow

theorem runs_closeArray (first : Bool) (frames : List Frame) :
    Runs [.closeArray] ⟨.array :: frames, awaitingItem first⟩ (afterValue frames) := by
  apply Runs.single
  intro token reads
  cases reads
  cases first
  all_goals rfl

theorem runs_closeObject (first : Bool) (seen : List String) (frames : List Frame) :
    Runs [.closeObject] ⟨.object seen :: frames, awaitingMember first⟩ (afterValue frames) := by
  apply Runs.single
  intro token reads
  cases reads
  cases first
  all_goals rfl

/-! ## Parts of trees -/

namespace Tree

/-- What is asked of a value so that the check takes it. -/
structure Accepted (tree : Tree) : Prop where
  distinct : tree.Distinct
  inRange : tree.InRange

theorem Accepted.item {items : List Tree} {item : Tree}
    (accepted : (Tree.array items).Accepted) (member : item ∈ items) : item.Accepted where
  distinct members inside := accepted.distinct members (.item member inside)
  inRange numeral inside := accepted.inRange numeral (.item member inside)

theorem Accepted.value {members : List (String × Tree)} {key : String} {value : Tree}
    (accepted : (Tree.object members).Accepted) (member : (key, value) ∈ members) :
    value.Accepted where
  distinct members inside := accepted.distinct members (.member member inside)
  inRange numeral inside := accepted.inRange numeral (.member member inside)

end Tree

/-! ## Whole values -/

mutual

/-- A value is read from wherever a value may come to after it. -/
theorem Tree.runs
    (tree : Tree) (accepted : tree.Accepted)
    (frames : List Frame) (shallow : frames.length + tree.depth ≤ depthLimit)
    (expecting : Expecting) (takes : TakesValue expecting) :
    Runs tree.symbols ⟨frames, expecting⟩ (afterValue frames) := by
  cases tree with
  | null =>
      apply Runs.single
      intro token reads
      rw [step_of_takesValue reads nofun takes]
      cases reads
      rfl
  | bool value =>
      apply Runs.single
      intro token reads
      rw [step_of_takesValue reads nofun takes]
      cases reads
      rfl
  | number numeral =>
      apply Runs.single
      intro token reads
      rw [step_of_takesValue reads nofun takes]
      cases reads
      rename_i begin ending start stop
      obtain ⟨value, read⟩ := (accepted.inRange numeral .self).exists_value begin ending
      rw [takeValue]
      dsimp only
      rw [read]
      rfl
  | text value =>
      apply Runs.single
      intro token reads
      rw [step_of_takesValue reads nofun takes]
      cases reads
      rfl
  | array items =>
      rw [Tree.depth] at shallow
      have opened := runs_openArray takes frames (by omega)
      have inside :=
        Tree.runs_items items (fun item member => accepted.item member) frames (by omega) true
      exact opened.append (inside.append (runs_closeArray _ frames))
  | object members =>
      rw [Tree.depth] at shallow
      have opened := runs_openObject takes frames (by omega)
      have inside :=
        Tree.runs_members members (fun key value member => accepted.value member)
          (accepted.distinct members .self) [] nofun frames (by omega) true
      exact opened.append (inside.append (runs_closeObject _ _ frames))

theorem Tree.runs_items
    (items : List Tree) (accepted : ∀ item ∈ items, item.Accepted)
    (frames : List Frame) (shallow : frames.length + 1 + depthOfItems items ≤ depthLimit)
    (first : Bool) :
    Runs (symbolsOfItems first items) ⟨.array :: frames, awaitingItem first⟩
      ⟨.array :: frames, awaitingItem (first && items.isEmpty)⟩ := by
  cases items with
  | nil =>
      rw [List.isEmpty_nil, Bool.and_true]
      exact .nil _
  | cons item items =>
      rw [Tree.depthOfItems] at shallow
      obtain ⟨expecting, takes, separated⟩ := exists_runs_separator first frames
      have here :=
        Tree.runs item (accepted item List.mem_cons_self) (.array :: frames)
          (by rw [List.length_cons]; omega) expecting takes
      have later :=
        Tree.runs_items items
          (fun other member => accepted other (List.mem_cons_of_mem item member)) frames
          (by omega) false
      rw [Tree.symbolsOfItems, List.isEmpty_cons, Bool.and_false]
      exact separated.append (here.append later)

theorem Tree.runs_members
    (members : List (String × Tree))
    (accepted : ∀ key value, (key, value) ∈ members → value.Accepted)
    (distinct : (members.map Prod.fst).Nodup)
    (seen : List String) (fresh : ∀ key ∈ members.map Prod.fst, key ∉ seen)
    (frames : List Frame) (shallow : frames.length + 1 + depthOfMembers members ≤ depthLimit)
    (first : Bool) :
    Runs (symbolsOfMembers first members) ⟨.object seen :: frames, awaitingMember first⟩
      ⟨.object ((members.map Prod.fst).reverse ++ seen) :: frames,
        awaitingMember (first && members.isEmpty)⟩ := by
  cases members with
  | nil =>
      rw [List.isEmpty_nil, Bool.and_true]
      exact .nil _
  | cons member members =>
      obtain ⟨key, value⟩ := member
      rw [Tree.depthOfMembers] at shallow
      rw [List.map_cons, List.nodup_cons] at distinct
      have opened := runs_key (fresh key List.mem_cons_self) first frames
      have here :=
        Tree.runs value (accepted key value List.mem_cons_self) (.object (key :: seen) :: frames)
          (by rw [List.length_cons]; omega) .value .value
      have freshLater : ∀ other ∈ members.map Prod.fst, other ∉ key :: seen := by
        intro other inLater inSeen
        rcases List.mem_cons.mp inSeen with rfl | inSeen
        · exact distinct.1 inLater
        · exact fresh other (List.mem_cons_of_mem key inLater) inSeen
      have later :=
        Tree.runs_members members
          (fun name value member => accepted name value (List.mem_cons_of_mem _ member))
          distinct.2 (key :: seen) freshLater frames (by omega) false
      have whole := opened.append (here.append later)
      rw [Tree.symbolsOfMembers, List.isEmpty_cons, Bool.and_false, List.map_cons,
        List.reverse_cons, List.append_assoc]
      rw [List.append_assoc] at whole
      exact whole

end

/-! ## The first problem of a text -/

/-- A front that is read without a problem leaves the problem to the tokens of the rest. -/
theorem firstProblem_append
    {symbols : List Symbol} {before rest : List Char} {nesting : Nesting}
    (laid : Lays symbols before)
    (apart : symbols.IsChain Apart)
    (stops : StopsNumber rest)
    (runs : Runs symbols Nesting.start nesting) :
    firstProblem (before ++ rest) =
      match (tokensFrom (Text.byteLength before) rest).foldlM Nesting.step nesting with
      | .ok _ => none
      | .error problem => some problem := by
  obtain ⟨front, reads, read⟩ := laid.lexes apart stops 0
  rw [Nat.zero_add] at read
  rw [firstProblem, tokens, read, List.foldlM_append, runs.foldlM reads]
  rfl

theorem firstProblem_of_accepted
    {tree : Tree} {text : List Char}
    (accepted : tree.Accepted)
    (shallow : tree.depth ≤ depthLimit)
    (laid : Lays tree.symbols text) :
    firstProblem text = none := by
  have runs := tree.runs accepted [] (by rw [List.length_nil]; omega) .value .value
  have stops : StopsNumber [] := nofun
  have found := firstProblem_append laid tree.isChain_symbols stops runs
  rw [List.append_nil] at found
  rw [found, tokensFrom]
  rfl

/-! ## The findings of the validator -/

theorem json_run_of_sound {text : List Char} (sound : firstProblem text = none) :
    Validator.json.run (String.ofList text) = .findings [] := by
  have silent : check (String.ofList text) = none := by
    rw [check, String.toList_ofList, sound]
    exact ite_self none
  exact congrArg (fun found => Outcome.findings found.toList) silent

theorem json_run_of_problem
    {text : List Char} {problem : Problem} {c : Char}
    (member : c ∈ text) (solid : Text.isBlank c = false)
    (found : firstProblem text = some problem) :
    Validator.json.run (String.ofList text) = .findings [diagnosticOf text problem] := by
  have notBlank : ¬ text.all Text.isBlank = true := by
    intro blank
    rw [List.all_eq_true.mp blank c member] at solid
    cases solid
  have speaks : check (String.ofList text) = some (diagnosticOf text problem) := by
    rw [check, String.toList_ofList, if_neg notBlank, found]
    rfl
  exact congrArg (fun found => Outcome.findings found.toList) speaks

end Heredoc.Json
