import Heredoc.Proofs.Text.Offsets
import Heredoc.Proofs.Xml.Location
import Heredoc.Validator.Basic
import Mathlib.Data.List.TakeWhile

/-!
# Bodies of white space

The check of JSON looks for white space of any kind, the check of XML for ASCII white space outside
the root. Main statement: a body of white space is always clean JSON, and clean XML exactly if all of
it is ASCII (`blank_body_findings`).
-/

namespace Heredoc.Xml

theorem pieces_of_blank
    {c : Char} {rest : List Char} (blank : ∀ d ∈ c :: rest, Text.isBlank d = true) :
    pieces (c :: rest) =
      [⟨.text (c :: rest), 0⟩, ⟨.finished, Text.byteLength (c :: rest)⟩] := by
  have noMarkup : ∀ d ∈ c :: rest, d ≠ '<' := by
    intro d member same
    have := blank d member
    rw [same] at this
    cases this
  have noMark : c ≠ '\uFEFF' := by
    intro same
    have := blank c List.mem_cons_self
    rw [same] at this
    cases this
  have unmarked : pieces (c :: rest) = piecesFrom 0 (c :: rest) := by
    unfold pieces
    split
    · rename_i same
      exact absurd (List.cons.inj same).1 noMark
    · rfl
  have all : rest.takeWhile (· ≠ '<') = rest := by
    apply List.takeWhile_eq_self_iff.mpr
    intro d member
    exact decide_eq_true (noMarkup d (List.mem_cons_of_mem c member))
  rw [unmarked, piecesFrom, if_neg (noMarkup c List.mem_cons_self)]
  dsimp only
  rw [all, List.drop_length, piecesFrom, Nat.zero_add]

theorem firstProblem_of_blank
    {text : List Char} (blank : ∀ c ∈ text, Text.isBlank c = true) :
    firstProblem text =
      if text.all Text.isAsciiBlank then none
      else some ⟨.strayText, (text.takeWhile Text.isAsciiBlank).length⟩ := by
  cases text with
  | nil =>
      have nothing : pieces [] = [⟨.finished, 0⟩] := by
        rw [pieces, piecesFrom]
        exact fun rest same => List.cons_ne_nil _ rest same.symm
      rw [firstProblem, nothing]
      rfl
  | cons c rest =>
      have empty : (Nesting.start.leftOver (c :: rest)) = none := by
        have isBlank : (c :: rest).all Text.isBlank = true := List.all_eq_true.mpr blank
        exact if_neg fun missing => missing.2 isBlank
      rw [firstProblem, pieces_of_blank blank]
      cases ascii : (c :: rest).all Text.isAsciiBlank with
      | true =>
          have taken (offset : Nat) :
              Nesting.start.step ⟨.text (c :: rest), offset⟩ = .ok Nesting.start :=
            if_neg (by rw [ascii]; decide)
          simp only [List.foldlM_cons, taken]
          exact empty
      | false =>
          have refused :
              Nesting.start.step ⟨.text (c :: rest), 0⟩ =
                .error ⟨.strayText, 0 + ((c :: rest).takeWhile Text.isAsciiBlank).length⟩ :=
            if_pos (by rw [ascii]; decide)
          simp only [List.foldlM_cons, refused, Nat.zero_add]
          rfl

end Heredoc.Xml

namespace Heredoc

/-- A body of white space is clean JSON. It is clean XML exactly if all of it is the narrower white
space of ASCII, and otherwise its first character that is not counts as text outside the root. -/
theorem blank_body_findings
    {body : String} (blank : ∀ c ∈ body.toList, Text.isBlank c = true) :
    Validator.json.run body = .findings [] ∧
      (Validator.xml.run body = .findings [] ↔ ∀ c ∈ body.toList, Text.isAsciiBlank c = true) ∧
      ((∃ c ∈ body.toList, Text.isAsciiBlank c = false) →
        Validator.xml.run body =
          .findings [.error "text outside the root element"
            (Text.rangeAfter (body.toList.takeWhile Text.isAsciiBlank))]) := by
  have json : Json.check body = none := if_pos (List.all_eq_true.mpr blank)
  have xml : Validator.xml.run body = .findings (Xml.check body).toList := rfl
  have problem := Xml.firstProblem_of_blank blank
  refine ⟨congrArg (fun found : Option _ => Outcome.findings found.toList) json, ?_⟩
  rw [xml, Xml.check, problem]
  by_cases ascii : body.toList.all Text.isAsciiBlank = true
  · rw [if_pos ascii]
    refine ⟨iff_of_true rfl (List.all_eq_true.mp ascii), ?_⟩
    intro other
    obtain ⟨c, member, outside⟩ := other
    rw [List.all_eq_true.mp ascii c member] at outside
    cases outside
  · rw [if_neg ascii]
    refine ⟨iff_of_false (fun same => by cases same) (mt List.all_eq_true.mpr ascii), fun _ => ?_⟩
    have size :
        Text.byteLength (body.toList.takeWhile Text.isAsciiBlank) =
          (body.toList.takeWhile Text.isAsciiBlank).length := by
      apply Text.byteLength_of_lt
      intro c member
      exact Xml.toNat_lt_of_isAsciiBlank c (List.all_eq_true.mp List.all_takeWhile c member)
    have place :=
      Text.positionAt_byteLength (body.toList.takeWhile Text.isAsciiBlank)
        (body.toList.dropWhile Text.isAsciiBlank)
    rw [List.takeWhile_append_dropWhile, size] at place
    simp only [Option.map_some, Xml.diagnosticOf, place]
    rfl

/-- A no-break space after a tab is refused, at its own place. -/
theorem blank_body_findings_noBreakSpace :
    (∀ c ∈ "\t\u00A0".toList, Text.isBlank c = true) ∧
      Validator.json.run "\t\u00A0" = .findings [] ∧
      Validator.xml.run "\t\u00A0" =
        .findings [.error "text outside the root element" (.singleChar 0 1)] := by
  have blank : ∀ c ∈ "\t\u00A0".toList, Text.isBlank c = true :=
    List.all_eq_true.mp (by decide +kernel)
  have wide : ∃ c ∈ "\t\u00A0".toList, Text.isAsciiBlank c = false :=
    ⟨'\u00A0', by decide +kernel, rfl⟩
  have place :
      Text.rangeAfter ("\t\u00A0".toList.takeWhile Text.isAsciiBlank) = .singleChar 0 1 := by
    decide +kernel
  obtain ⟨json, _, xml⟩ := blank_body_findings blank
  rw [place] at xml
  exact ⟨blank, json, xml wide⟩

end Heredoc
