import Heredoc.Proofs.Text.Slices
import Heredoc.Xml.Check

/-!
# From what an XML reader reports to the place of a diagnostic

The check of an XML body is carried out here for any reader, whatever it reads and at whatever
offsets, with cuts of the text that may fail. Main statements: no cut fails and the diagnostic is at
the position of some offset (`check?_eq`), and with the pieces of this library the check is
`Xml.check` (`check?_readings`).
-/

namespace Heredoc.Xml

/-- What a reader hands over. It matches end tags itself, so their names are not told. -/
inductive Event where
  | opening (name : String)
  | emptyElement
  | closing
  | text (content : List UInt8)
  | cdata
  | aside
  | refused (message : String)
deriving DecidableEq, Repr

/-- An event and the byte offset that the reader gives for it. -/
structure Reading where
  event : Event
  offset : Nat
deriving DecidableEq, Repr

/-- What is reported about a text, and the byte offset that it is reported for. -/
structure Complaint where
  message : String
  offset : Nat
deriving DecidableEq, Repr

/-- A problem as it is reported. -/
def Problem.complaint (problem : Problem) : Complaint :=
  ⟨problem.cause.message, problem.offset⟩

/-! ## The check by cuts -/

/-- Takes in a reading, or complains about it. -/
def Nesting.take (nesting : Nesting) (reading : Reading) : Except Complaint Nesting :=
  match reading.event with
  | .opening name =>
      ((nesting.countRoot reading.offset).map fun counted =>
        { counted with open_ := name :: counted.open_ }).mapError Problem.complaint
  | .emptyElement => (nesting.countRoot reading.offset).mapError Problem.complaint
  | .closing => .ok { nesting with open_ := nesting.open_.tail }
  | .text content =>
      let blank := Text.byteIn Text.isAsciiBlank
      if nesting.open_.isEmpty && !content.all blank then
        .error ⟨Cause.strayText.message, reading.offset + (content.takeWhile blank).length⟩
      else .ok nesting
  | .cdata =>
      if nesting.open_.isEmpty then .error ⟨Cause.strayCdata.message, reading.offset⟩
      else .ok nesting
  | .aside => .ok nesting
  | .refused message => .error ⟨message, reading.offset⟩

/-- The first complaint about a text from which this was read; the reader has then come to the
end. -/
def complaint? (text : List Char) (readings : List Reading) : Option Complaint :=
  match readings.foldlM Nesting.take Nesting.start with
  | .error complaint => some complaint
  | .ok nesting => (nesting.leftOver text).map Problem.complaint

/-- The error that a complaint becomes, by cuts. -/
def errorAt? (text : List Char) (complaint : Complaint) : Option LocalDiagnostic :=
  (Text.positionAt? text complaint.offset).map fun at_ =>
    .error complaint.message (.singleChar at_.line at_.character)

/-- The check of a body with any reader; `none` if the text is cut where it cannot be. -/
def check? (read : List Char → List Reading) (body : String) : Option (Option LocalDiagnostic) :=
  let text := body.toList
  match complaint? text (read text) with
  | none => some none
  | some complaint => (errorAt? text complaint).map some

/-! ## No cut fails -/

/-- The error that a complaint becomes. -/
def Complaint.diagnostic (text : List Char) (complaint : Complaint) : LocalDiagnostic :=
  let at_ := Text.positionAt text complaint.offset
  .error complaint.message (.singleChar at_.line at_.character)

theorem check?_eq (read : List Char → List Reading) (body : String) :
    check? read body =
      some ((complaint? body.toList (read body.toList)).map
        (Complaint.diagnostic body.toList)) := by
  simp only [check?, errorAt?, Text.positionAt?_eq, Option.map_some]
  cases complaint? body.toList (read body.toList) with
  | none => rfl
  | some complaint => rfl

theorem complaint?_nil : complaint? [] [] = none := rfl

/-! ## The pieces of this library -/

/-- Hands pieces over, with these elements open; an end tag that does not match is refused. -/
def readOut : List String → List Piece → List Reading
  | _, [] => []
  | open_, piece :: rest =>
      match piece.kind with
      | .opening name => ⟨.opening name, piece.offset⟩ :: readOut (name :: open_) rest
      | .emptyElement => ⟨.emptyElement, piece.offset⟩ :: readOut open_ rest
      | .closing name =>
          match open_ with
          | [] => [⟨.refused (Cause.unmatchedEnd name).message, piece.offset⟩]
          | expected :: outer =>
              if name = expected then ⟨.closing, piece.offset⟩ :: readOut outer rest
              else [⟨.refused (Cause.mismatchedEnd expected name).message, piece.offset⟩]
      | .text content => ⟨.text (Text.bytes content), piece.offset⟩ :: readOut open_ rest
      | .cdata => ⟨.cdata, piece.offset⟩ :: readOut open_ rest
      | .aside => ⟨.aside, piece.offset⟩ :: readOut open_ rest
      | .finished => readOut open_ rest
      | .broken cause => [⟨.refused cause.message, piece.offset⟩]

/-- What the reader of this library hands over. -/
def readings (text : List Char) : List Reading :=
  readOut [] (pieces text)

theorem readings_nil : readings [] = [] := by
  have pieces : pieces [] = [⟨.finished, 0⟩] := by
    rw [Xml.pieces, piecesFrom]
    simp
  rw [readings, pieces]
  rfl

theorem toNat_lt_of_isAsciiBlank (c : Char) (blank : Text.isAsciiBlank c = true) :
    c.toNat < 128 := by
  simp only [Text.isAsciiBlank, Bool.or_eq_true, beq_iff_eq] at blank
  rcases blank with (((rfl | rfl) | rfl) | rfl) | rfl <;> decide

theorem open_countRoot
    {nesting counted : Nesting} {offset : Nat} (ok : nesting.countRoot offset = .ok counted) :
    counted.open_ = nesting.open_ := by
  rw [Nesting.countRoot] at ok
  split at ok
  · cases ok
    rfl
  · split at ok
    · cases ok
    · cases ok
      rfl

theorem open_step
    {nesting next : Nesting} {kind : Kind} {offset : Nat}
    (stepped : nesting.step ⟨kind, offset⟩ = .ok next) :
    next.open_ = match kind with
      | .opening name => name :: nesting.open_
      | .closing _ => nesting.open_.tail
      | _ => nesting.open_ := by
  cases kind with
  | opening name =>
      simp only [Nesting.step] at stepped
      cases counts : nesting.countRoot offset with
      | error problem =>
          rw [counts] at stepped
          cases stepped
      | ok counted =>
          rw [counts] at stepped
          cases stepped
          exact congrArg (name :: ·) (open_countRoot counts)
  | emptyElement => exact open_countRoot stepped
  | closing name =>
      obtain ⟨open_, roots⟩ := nesting
      cases open_ with
      | nil => cases stepped
      | cons expected outer =>
          simp only [Nesting.step] at stepped
          split at stepped
          · cases stepped
            rfl
          · cases stepped
  | text content =>
      simp only [Nesting.step] at stepped
      split at stepped
      · cases stepped
      · cases stepped
        rfl
  | cdata =>
      simp only [Nesting.step] at stepped
      split at stepped
      · cases stepped
      · cases stepped
        rfl
  | aside =>
      cases stepped
      rfl
  | finished =>
      cases stepped
      rfl
  | broken cause => cases stepped

theorem take_text (nesting : Nesting) (content : List Char) (offset : Nat) :
    nesting.take ⟨.text (Text.bytes content), offset⟩ =
      (nesting.step ⟨.text content, offset⟩).mapError Problem.complaint := by
  have all := Text.all_byteIn toNat_lt_of_isAsciiBlank content
  have leading := Text.length_takeWhile_byteIn toNat_lt_of_isAsciiBlank content
  simp only [Nesting.take, Nesting.step, all, leading]
  split
  · rfl
  · rfl

theorem take_cdata (nesting : Nesting) (offset : Nat) :
    nesting.take ⟨.cdata, offset⟩ =
      (nesting.step ⟨.cdata, offset⟩).mapError Problem.complaint := by
  simp only [Nesting.take, Nesting.step]
  split
  · rfl
  · rfl

/-- One reading that does what one piece does, and then the readings of the rest. -/
theorem foldlM_take_cons
    {nesting : Nesting} {reading : Reading} {piece : Piece}
    {later : List Reading} {rest : List Piece}
    (same : nesting.take reading = (nesting.step piece).mapError Problem.complaint)
    (follows : ∀ next, nesting.step piece = .ok next →
      later.foldlM Nesting.take next =
        (rest.foldlM Nesting.step next).mapError Problem.complaint) :
    (reading :: later).foldlM Nesting.take nesting =
      ((piece :: rest).foldlM Nesting.step nesting).mapError Problem.complaint := by
  rw [List.foldlM_cons, List.foldlM_cons, same]
  cases stepped : nesting.step piece with
  | error problem => rfl
  | ok next => exact follows next stepped

theorem foldlM_readOut (pieces : List Piece) (nesting : Nesting) :
    (readOut nesting.open_ pieces).foldlM Nesting.take nesting =
      (pieces.foldlM Nesting.step nesting).mapError Problem.complaint := by
  induction pieces generalizing nesting with
  | nil => rfl
  | cons piece rest inductionHypothesis =>
      obtain ⟨kind, offset⟩ := piece
      -- The elements that the reader has open are those that the check has open.
      have continued {next : Nesting} {open_ : List String} (opened : next.open_ = open_) :
          (readOut open_ rest).foldlM Nesting.take next =
            (rest.foldlM Nesting.step next).mapError Problem.complaint := by
        rw [← opened]
        exact inductionHypothesis next
      cases kind with
      | opening name =>
          exact foldlM_take_cons rfl fun next stepped => continued (open_step stepped)
      | emptyElement =>
          exact foldlM_take_cons rfl fun next stepped => continued (open_step stepped)
      | closing name =>
          obtain ⟨open_, roots⟩ := nesting
          cases open_ with
          | nil => rfl
          | cons expected outer =>
              by_cases matched : name = expected
              · simp only [readOut, if_pos matched]
                refine foldlM_take_cons ?_ fun next stepped => continued (open_step stepped)
                simp only [Nesting.step, if_pos matched]
                rfl
              · simp only [readOut, if_neg matched]
                have refused :
                    Nesting.step ⟨expected :: outer, roots⟩ ⟨.closing name, offset⟩ =
                      .error ⟨.mismatchedEnd expected name, offset⟩ := by
                  simp only [Nesting.step, if_neg matched]
                refine foldlM_take_cons ?_ fun next stepped => ?_
                · rw [refused]
                  rfl
                · rw [refused] at stepped
                  cases stepped
      | text content =>
          exact foldlM_take_cons (take_text nesting content offset) fun next stepped =>
            continued (open_step stepped)
      | cdata =>
          exact foldlM_take_cons (take_cdata nesting offset) fun next stepped =>
            continued (open_step stepped)
      | aside => exact foldlM_take_cons rfl fun next stepped => continued (open_step stepped)
      | finished => exact inductionHypothesis nesting
      | broken cause => rfl

theorem check?_readings (body : String) : check? readings body = some (check body) := by
  rw [check?_eq, check, firstProblem, complaint?, readings, Nesting.start,
    foldlM_readOut (pieces body.toList) ⟨[], 0⟩]
  cases (pieces body.toList).foldlM Nesting.step ⟨[], 0⟩ with
  | error problem => rfl
  | ok nesting =>
      simp only [Except.mapError, Option.map_map]
      rfl

end Heredoc.Xml
