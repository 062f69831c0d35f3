import Heredoc.Proofs.Xml.Location
import Mathlib.Data.List.Basic

/-!
# Elements in what an XML reader hands over

Readings are balanced when every element that is opened is closed and nothing else is closed; that is
said here by the shape of the list, without a stack. Main statements: if only the innermost open
element is ever closed, a stack of names is empty exactly after balanced readings
(`openAfter_eq_nil_iff`), and the reader of this library closes no other (`matched_readings`).
-/

namespace Heredoc.Xml

/-! ## Elements -/

namespace Event

/-- An element begins here. -/
def begins : Event → Bool
  | .opening _ | .emptyElement => true
  | _ => false

/-- Neither opens nor closes an element. -/
def isFlat : Event → Bool
  | .opening _ | .closing => false
  | _ => true

/-- The elements that are open after an event, innermost first. -/
def openAfter (open_ : List String) : Event → List String
  | .opening name => name :: open_
  | .closing => open_.tail
  | _ => open_

theorem openAfter_of_isFlat {event : Event} (flat : event.isFlat = true) (open_ : List String) :
    event.openAfter open_ = open_ := by
  cases event with
  | opening name => cases flat
  | closing => cases flat
  | _ => rfl

end Event

/-- Whatever is opened is closed, and nothing else is closed. -/
inductive Balanced : List Reading → Prop where
  | nil : Balanced []
  | flat {reading : Reading} {others : List Reading}
      (isFlat : reading.event.isFlat = true)
      (balanced : Balanced others) :
      Balanced (reading :: others)
  | element {name : String} {start stop : Nat} {inner others : List Reading}
      (inside : Balanced inner)
      (balanced : Balanced others) :
      Balanced (⟨.opening name, start⟩ :: (inner ++ ⟨.closing, stop⟩ :: others))

theorem Balanced.append
    {front back : List Reading}
    (balanced : Balanced front) (balancedBack : Balanced back) :
    Balanced (front ++ back) := by
  induction balanced with
  | nil => exact balancedBack
  | flat isFlat _ inductionHypothesis => exact .flat isFlat inductionHypothesis
  | element inside _ _ inductionHypothesis =>
      rw [List.cons_append, List.append_assoc, List.cons_append]
      exact .element inside inductionHypothesis

/-- The innermost element that is still open has this name. -/
def Innermost (readings : List Reading) (name : String) : Prop :=
  ∃ outer start inner,
    readings = outer ++ ⟨.opening name, start⟩ :: inner ∧ Balanced inner

/-- Only the innermost element that is open is ever closed. -/
def Matched (readings : List Reading) : Prop :=
  ∀ before stop after,
    readings = before ++ ⟨.closing, stop⟩ :: after → ∃ name, Innermost before name

/-! ## The elements that readings leave open -/

/-- The elements that are open after the readings, the innermost first. -/
def openAfter (open_ : List String) (readings : List Reading) : List String :=
  readings.foldl (fun opened reading => reading.event.openAfter opened) open_

theorem openAfter_cons (open_ : List String) (reading : Reading) (others : List Reading) :
    openAfter open_ (reading :: others) = openAfter (reading.event.openAfter open_) others :=
  rfl

theorem openAfter_append (open_ : List String) (front back : List Reading) :
    openAfter open_ (front ++ back) = openAfter (openAfter open_ front) back :=
  List.foldl_append

theorem openAfter_concat (open_ : List String) (front : List Reading) (reading : Reading) :
    openAfter open_ (front ++ [reading]) = reading.event.openAfter (openAfter open_ front) :=
  openAfter_append open_ front [reading]

theorem Balanced.openAfter_eq
    {readings : List Reading} (balanced : Balanced readings) (open_ : List String) :
    openAfter open_ readings = open_ := by
  induction balanced generalizing open_ with
  | nil => rfl
  | flat isFlat _ inductionHypothesis =>
      rw [openAfter_cons, Event.openAfter_of_isFlat isFlat, inductionHypothesis]
  | element _ _ insideHypothesis inductionHypothesis =>
      rw [openAfter_cons, openAfter_append, insideHypothesis, openAfter_cons]
      exact inductionHypothesis open_

theorem Innermost.exists_openAfter
    {readings : List Reading} {name : String} (innermost : Innermost readings name) :
    ∃ outer, openAfter [] readings = name :: outer := by
  obtain ⟨outer, start, inner, whole, balanced⟩ := innermost
  refine ⟨openAfter [] outer, ?_⟩
  rw [whole, openAfter_append]
  exact balanced.openAfter_eq _

/-- These are the names of the elements that are open, each around what is balanced. -/
inductive Leaves : List Reading → List String → Prop where
  | nothing {readings : List Reading}
      (balanced : Balanced readings) :
      Leaves readings []
  | within {outer inner : List Reading} {names : List String} {name : String} {start : Nat}
      (outside : Leaves outer names)
      (balanced : Balanced inner) :
      Leaves (outer ++ ⟨.opening name, start⟩ :: inner) (name :: names)

namespace Leaves

variable {readings : List Reading} {names : List String}

theorem balanced (leaves : Leaves readings []) : Balanced readings := by
  cases leaves
  assumption

theorem innermost {name : String} (leaves : Leaves readings (name :: names)) :
    Innermost readings name := by
  cases leaves with
  | within _ balanced => exact ⟨_, _, _, rfl, balanced⟩

theorem append_balanced
    {more : List Reading} (leaves : Leaves readings names) (balancedMore : Balanced more) :
    Leaves (readings ++ more) names := by
  cases leaves with
  | nothing balanced => exact .nothing (balanced.append balancedMore)
  | within outside balanced =>
      rw [List.append_assoc, List.cons_append]
      exact .within outside (balanced.append balancedMore)

theorem append_opening (leaves : Leaves readings names) (name : String) (start : Nat) :
    Leaves (readings ++ [⟨.opening name, start⟩]) (name :: names) :=
  .within leaves .nil

theorem append_closing
    {name : String} (leaves : Leaves readings (name :: names)) (stop : Nat) :
    Leaves (readings ++ [⟨.closing, stop⟩]) names := by
  cases leaves with
  | @within outer inner _ _ start outside balanced =>
      have element : Balanced (⟨.opening name, start⟩ :: (inner ++ [⟨.closing, stop⟩])) :=
        .element balanced .nil
      rw [List.append_assoc, List.cons_append]
      exact outside.append_balanced element

end Leaves

theorem Matched.of_append
    {front back : List Reading} (matched : Matched (front ++ back)) : Matched front := by
  intro before stop after whole
  apply matched before stop (after ++ back)
  rw [whole, List.append_assoc, List.cons_append]

/-- Matched readings leave open what a stack of names has on it. -/
theorem leaves_openAfter
    {readings : List Reading} (matched : Matched readings) :
    Leaves readings (openAfter [] readings) := by
  induction readings using List.reverseRecOn with
  | nil => exact .nothing .nil
  | append_singleton before reading inductionHypothesis =>
      have leaves := inductionHypothesis matched.of_append
      obtain ⟨event, offset⟩ := reading
      rw [openAfter_concat]
      cases event with
      | opening name => exact leaves.append_opening name offset
      | closing =>
          obtain ⟨name, innermost⟩ := matched before offset [] rfl
          obtain ⟨outer, opened⟩ := innermost.exists_openAfter
          rw [opened] at leaves ⊢
          exact leaves.append_closing offset
      | _ => exact leaves.append_balanced (.flat rfl .nil)

theorem openAfter_eq_nil_iff
    {readings : List Reading} (matched : Matched readings) :
    openAfter [] readings = [] ↔ Balanced readings := by
  constructor
  · intro nothing
    have leaves := leaves_openAfter matched
    rw [nothing] at leaves
    exact leaves.balanced
  · intro balanced
    exact balanced.openAfter_eq []

/-! ## The reader of this library -/

/-- The last reading of a list, or one before it. -/
theorem concat_eq_append_cons
    {α : Type} {before front after : List α} {last item : α}
    (whole : before ++ [last] = front ++ item :: after) :
    (front = before ∧ item = last ∧ after = []) ∨
      ∃ middle, before = front ++ item :: middle ∧ after = middle ++ [last] := by
  rcases List.eq_nil_or_concat' after with rfl | ⟨middle, final, rfl⟩
  · obtain ⟨same, sameLast⟩ := List.append_inj' whole rfl
    exact .inl ⟨same.symm, (List.cons.inj sameLast).1.symm, rfl⟩
  · rw [← List.cons_append, ← List.append_assoc] at whole
    obtain ⟨same, sameLast⟩ := List.append_inj' whole rfl
    exact .inr ⟨middle, same, by rw [sameLast]⟩

theorem Matched.concat
    {before : List Reading} {reading : Reading}
    (matched : Matched before)
    (matchedHere : reading.event = .closing → ∃ name, Innermost before name) :
    Matched (before ++ [reading]) := by
  intro front stop after whole
  rcases concat_eq_append_cons whole with ⟨rfl, rfl, _⟩ | ⟨middle, split, _⟩
  · exact matchedHere rfl
  · exact matched front stop middle split

theorem Matched.append_readOut
    {before : List Reading} {open_ : List String}
    (matched : Matched before) (leaves : Leaves before open_) (pieces : List Piece) :
    Matched (before ++ readOut open_ pieces) := by
  induction pieces generalizing before open_ with
  | nil =>
      rw [readOut, List.append_nil]
      exact matched
  | cons piece rest inductionHypothesis =>
      obtain ⟨kind, offset⟩ := piece
      have refuses (message : String) : Matched (before ++ [⟨.refused message, offset⟩]) :=
        matched.concat fun same => by cases same
      have continued {event : Event} {opened : List String}
          (matchedHere : event = .closing → ∃ name, Innermost before name)
          (leavesHere : Leaves (before ++ [⟨event, offset⟩]) opened) :
          Matched (before ++ ⟨event, offset⟩ :: readOut opened rest) := by
        have later := inductionHypothesis (matched.concat matchedHere) leavesHere
        rwa [List.append_assoc, List.singleton_append] at later
      have flat {event : Event} (isFlat : event.isFlat = true) :
          Leaves (before ++ [⟨event, offset⟩]) open_ :=
        leaves.append_balanced (.flat isFlat .nil)
      cases kind with
      | opening name =>
          exact continued (fun same => by cases same) (leaves.append_opening name offset)
      | closing name =>
          cases open_ with
          | nil => exact refuses _
          | cons expected outer =>
              rw [readOut]
              dsimp only
              split
              · exact continued (fun _ => ⟨expected, leaves.innermost⟩)
                  (leaves.append_closing offset)
              · exact refuses _
      | finished => exact inductionHypothesis matched leaves
      | broken cause => exact refuses _
      | emptyElement => exact continued (fun same => by cases same) (flat rfl)
      | text content => exact continued (fun same => by cases same) (flat rfl)
      | cdata => exact continued (fun same => by cases same) (flat rfl)
      | aside => exact continued (fun same => by cases same) (flat rfl)

theorem matched_readings (text : List Char) : Matched (readings text) := by
  have nothing : Matched [] := by
    intro before stop after whole
    cases before
    all_goals cases whole
  exact nothing.append_readOut (.nothing .nil) (pieces text)

end Heredoc.Xml
