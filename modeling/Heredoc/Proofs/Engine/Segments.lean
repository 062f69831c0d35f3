import Heredoc.Proofs.Engine.View
import Mathlib.Data.List.Forall2

/-!
# What becomes of each region

A dispatch leaves one segment of diagnostics for each region. Which one is said here without the
functions that compute it, one case for each way out of a region (`Engine.Yields`); how the
validator of a region ends is a parameter of its own, so that the cases say which outcomes count.
-/

namespace Heredoc

theorem Outcome.diagnostics_of_failure?
    {outcome : Outcome} {message : String} (broke : outcome.failure? = some message)
    (bodyStart : Nat) (key : String) :
    outcome.diagnostics bodyStart key =
      [.validatorFailed key (clamp32 bodyStart) message] := by
  cases outcome with
  | findings found => cases broke
  | failed reason => simp only [diagnostics, broke, Option.map_some, Option.toList_some]
  | ioFailed reason => simp only [diagnostics, broke, Option.map_some, Option.toList_some]
  | crashed reason => simp only [diagnostics, broke, Option.map_some, Option.toList_some]

namespace Engine

/-- The tag of the region stands for the key, and the key has a validator, which may run. -/
structure Routes (engine : Engine) (region : Region) (key : String) : Prop where
  mapped : engine.tags.lookup region.tag = some key
  enabled : engine.settings.isEnabled key = true
  registered : (engine.validators.get? key).isSome = true

/-- The body of the region is not over the size limit. -/
def Fits (engine : Engine) (view : View) (region : Region) : Prop :=
  (view.bodyText region).utf8ByteSize ≤ engine.settings.maxBytes

/-- What is left of a region whose validator would end with this outcome. -/
inductive Yields (engine : Engine) (view : View) (region : Region) (outcome : Outcome) :
    List Diagnostic → Prop where
  | unmapped
      (unknown : engine.tags.lookup region.tag = none) :
      Yields engine view region outcome []
  | disabled {key : String}
      (mapped : engine.tags.lookup region.tag = some key)
      (off : engine.settings.isEnabled key = false) :
      Yields engine view region outcome []
  | unregistered {key : String}
      (mapped : engine.tags.lookup region.tag = some key)
      (absent : engine.validators.get? key = none) :
      Yields engine view region outcome []
  | oversized {key : String}
      (routed : engine.Routes region key)
      (tooLarge : ¬ engine.Fits view region) :
      Yields engine view region outcome
        [{ message := "skipped validation (exceeds size limit)"
           severity := .information
           range := ⟨⟨clamp32 region.bodyStart, 0⟩, ⟨clamp32 region.bodyStart, 0⟩⟩
           source := "heredoc:" ++ key
           code := .tooLarge }]
  | failed {key message : String}
      (routed : engine.Routes region key)
      (fits : engine.Fits view region)
      (broke : outcome.failure? = some message) :
      Yields engine view region outcome
        [{ message
           severity := .error
           range := ⟨⟨clamp32 region.bodyStart, 0⟩, ⟨clamp32 region.bodyStart, 0⟩⟩
           source := "heredoc:" ++ key
           code := .validatorFailed }]
  | checked {key : String} {found : List LocalDiagnostic}
      (routed : engine.Routes region key)
      (fits : engine.Fits view region)
      (ended : outcome = .findings found) :
      Yields engine view region outcome (found.filterMap (·.place? region.bodyStart key))

/-- The diagnostics are one segment for each region, in order, if the validator of each region ends
with the outcome of its number. -/
def Concatenates
    (engine : Engine) (view : View) (regions : List Region) (outcomes : Nat → Outcome)
    (diagnostics : List Diagnostic) : Prop :=
  ∃ segments,
    List.Forall₂
        (fun pair segment => engine.Yields view pair.1 (outcomes pair.2) segment)
        regions.zipIdx segments ∧
      diagnostics = segments.flatten

/-- How the validator of a region ends, if it has one. -/
def answer (engine : Engine) (view : View) (region : Region) : Outcome :=
  match engine.validatorFor? region.tag with
  | some (_, validator) => validator.run (view.bodyText region)
  | none => .findings []

/-- How the validators of the regions end, by the numbers of the regions. -/
def answers (engine : Engine) (view : View) (regions : List Region) (number : Nat) : Outcome :=
  (regions[number]?.map (engine.answer view)).getD (.findings [])

/-- The segment of a region, computed. -/
def segment (engine : Engine) (view : View) (region : Region) (outcome : Outcome) :
    List Diagnostic :=
  match engine.validatorFor? region.tag with
  | none => []
  | some (key, _) =>
      if (view.bodyText region).utf8ByteSize > engine.settings.maxBytes then
        [.tooLarge key (clamp32 region.bodyStart)]
      else outcome.diagnostics region.bodyStart key

/-- The segments of numbered regions. -/
def segments
    (engine : Engine) (view : View) (outcomes : Nat → Outcome) (numbered : List (Region × Nat)) :
    List Diagnostic :=
  numbered.flatMap fun pair => engine.segment view pair.1 (outcomes pair.2)

/-! ## Routing -/

variable {engine : Engine} {view : View} {region : Region} {outcome : Outcome}

theorem Routes.exists_validator
    {key : String} (routed : engine.Routes region key) :
    ∃ validator, engine.validatorFor? region.tag = some (key, validator) := by
  obtain ⟨validator, registered⟩ := Option.isSome_iff_exists.mp routed.registered
  refine ⟨validator, ?_⟩
  simp [validatorFor?, routed.mapped, routed.enabled, registered]

theorem routes_of_validatorFor?
    {key : String} {validator : Validator}
    (found : engine.validatorFor? region.tag = some (key, validator)) :
    engine.Routes region key := by
  unfold validatorFor? at found
  split at found
  · cases found
  · rename_i known mapped
    split at found
    · rename_i enabled
      obtain ⟨registered, known, same⟩ := Option.map_eq_some_iff.mp found
      cases same
      exact ⟨mapped, enabled, by rw [known]; rfl⟩
    · cases found

/-- A region that no validator gets leaves nothing. -/
theorem yields_of_validatorFor?
    (unrouted : engine.validatorFor? region.tag = none) :
    engine.Yields view region outcome [] := by
  unfold validatorFor? at unrouted
  split at unrouted
  · rename_i unknown
    exact .unmapped unknown
  · rename_i key mapped
    split at unrouted
    · exact .unregistered mapped (Option.map_eq_none_iff.mp unrouted)
    · rename_i off
      exact .disabled mapped (Bool.eq_false_iff.mpr off)

/-- A validator that gets a body leaves what its outcome says. -/
theorem yields_of_outcome
    {key : String}
    (routed : engine.Routes region key) (fits : engine.Fits view region) (outcome : Outcome) :
    engine.Yields view region outcome (outcome.diagnostics region.bodyStart key) := by
  cases outcome with
  | findings found => exact .checked routed fits rfl
  | failed message => exact .failed routed fits rfl
  | ioFailed message => exact .failed routed fits rfl
  | crashed message => exact .failed routed fits rfl

/-! ## The segment that is left -/

theorem segment_of_unrouted
    (unrouted : engine.validatorFor? region.tag = none) :
    engine.segment view region outcome = [] := by
  simp only [segment, unrouted]

theorem Routes.segment_of_not_fits
    {key : String} (routed : engine.Routes region key) (tooLarge : ¬ engine.Fits view region) :
    engine.segment view region outcome = [.tooLarge key (clamp32 region.bodyStart)] := by
  obtain ⟨validator, found⟩ := routed.exists_validator
  have above : (view.bodyText region).utf8ByteSize > engine.settings.maxBytes :=
    Nat.lt_of_not_le tooLarge
  simp only [segment, found, if_pos above]

theorem Routes.segment_of_fits
    {key : String} (routed : engine.Routes region key) (fits : engine.Fits view region) :
    engine.segment view region outcome = outcome.diagnostics region.bodyStart key := by
  obtain ⟨validator, found⟩ := routed.exists_validator
  have notAbove : ¬ (view.bodyText region).utf8ByteSize > engine.settings.maxBytes :=
    Nat.not_lt_of_le fits
  simp only [segment, found, if_neg notAbove]

/-- Exactly one segment is left of a region. -/
theorem yields_iff {diagnostics : List Diagnostic} :
    engine.Yields view region outcome diagnostics ↔
      engine.segment view region outcome = diagnostics := by
  constructor
  · intro yielded
    cases yielded with
    | unmapped unknown =>
        exact segment_of_unrouted (by simp only [validatorFor?, unknown])
    | disabled mapped off =>
        exact segment_of_unrouted (by simp [validatorFor?, mapped, off])
    | unregistered mapped absent =>
        exact segment_of_unrouted (by simp [validatorFor?, mapped, absent])
    | oversized routed tooLarge =>
        exact routed.segment_of_not_fits tooLarge
    | failed routed fits broke =>
        rw [routed.segment_of_fits fits, Outcome.diagnostics_of_failure? broke]
        rfl
    | checked routed fits ended =>
        rw [routed.segment_of_fits fits, ended]
        rfl
  · rintro rfl
    cases routing : engine.validatorFor? region.tag with
    | none =>
        rw [segment_of_unrouted routing]
        exact yields_of_validatorFor? routing
    | some found =>
        have routed := routes_of_validatorFor? routing
        by_cases fits : engine.Fits view region
        · rw [routed.segment_of_fits fits]
          exact yields_of_outcome routed fits outcome
        · rw [routed.segment_of_not_fits fits]
          exact .oversized routed fits

/-- Exactly one list is the concatenation. -/
theorem concatenates_iff
    {regions : List Region} {outcomes : Nat → Outcome} {diagnostics : List Diagnostic} :
    engine.Concatenates view regions outcomes diagnostics ↔
      engine.segments view outcomes regions.zipIdx = diagnostics := by
  have pointwise (parts : List (List Diagnostic)) :
      List.Forall₂
          (fun pair part => engine.Yields view pair.1 (outcomes pair.2) part)
          regions.zipIdx parts ↔
        regions.zipIdx.map (fun pair => engine.segment view pair.1 (outcomes pair.2)) = parts := by
    simp only [yields_iff]
    rw [← List.forall₂_map_left_iff, List.forall₂_eq_eq_eq]
  simp only [Concatenates, pointwise, exists_eq_left', segments, List.flatMap_def]
  exact eq_comm

/-- A change of the outcome of one region stays in the middle. -/
theorem segments_append_cons
    (engine : Engine) (view : View) (outcomes : Nat → Outcome) (left right : List Region)
    (region : Region) :
    engine.segments view outcomes (left ++ region :: right).zipIdx =
      engine.segments view outcomes left.zipIdx ++
          engine.segment view region (outcomes left.length) ++
        engine.segments view (fun number => outcomes (left.length + 1 + number)) right.zipIdx := by
  have later :
      engine.segments view outcomes (right.zipIdx (left.length + 1)) =
        engine.segments view (fun number => outcomes (left.length + 1 + number)) right.zipIdx := by
    rw [segments, List.zipIdx_eq_map_add, List.flatMap_map]
    rfl
  rw [← later, segments, List.zipIdx_append, Nat.zero_add, List.zipIdx_cons, List.flatMap_append,
    List.flatMap_cons, ← List.append_assoc]
  rfl

theorem segments_congr
    {outcomes others : Nat → Outcome} (regions : List Region)
    (same : ∀ number < regions.length, outcomes number = others number) :
    engine.segments view outcomes regions.zipIdx = engine.segments view others regions.zipIdx := by
  refine List.flatMap_congr fun pair present => ?_
  have inside : pair.2 < regions.length := by
    simpa using List.snd_lt_add_of_mem_zipIdx present
  rw [same pair.2 inside]

/-! ## The dispatch leaves these segments -/

theorem diagnostics_dispatchRegion :
    (engine.dispatchRegion view region).diagnostics =
      engine.segment view region (engine.answer view region) := by
  cases routing : engine.validatorFor? region.tag with
  | none => simp only [dispatchRegion, segment, routing, Dispatched.nothing]
  | some found =>
      simp only [dispatchRegion, segment, answer, routing]
      split <;> rfl

theorem diagnostics_dispatch (engine : Engine) (view : View) (regions : List Region) :
    (engine.dispatch view regions).diagnostics =
      regions.flatMap fun region => engine.segment view region (engine.answer view region) := by
  induction regions with
  | nil => rfl
  | cons region rest inductionHypothesis =>
      rw [List.flatMap_cons, ← inductionHypothesis, ← diagnostics_dispatchRegion]
      rfl

theorem answers_of_mem_zipIdx
    {regions : List Region} {pair : Region × Nat} (present : pair ∈ regions.zipIdx) :
    engine.answers view regions pair.2 = engine.answer view pair.1 := by
  have found : regions[pair.2]? = some pair.1 := List.mem_zipIdx_iff_getElem?.mp present
  rw [answers, found]
  rfl

theorem segments_answers (engine : Engine) (view : View) (regions : List Region) :
    engine.segments view (engine.answers view regions) regions.zipIdx =
      (engine.dispatch view regions).diagnostics := by
  have answered :
      engine.segments view (engine.answers view regions) regions.zipIdx =
        regions.zipIdx.flatMap fun pair =>
          engine.segment view pair.1 (engine.answer view pair.1) := by
    refine List.flatMap_congr fun pair present => ?_
    rw [answers_of_mem_zipIdx present]
  calc
    _ = _ := answered
    _ = (regions.zipIdx.map Prod.fst).flatMap fun region =>
          engine.segment view region (engine.answer view region) := by
        rw [List.flatMap_map]
    _ = _ := by
        rw [List.zipIdx_map_fst, diagnostics_dispatch]

theorem dispatch_append (engine : Engine) (view : View) (regions later : List Region) :
    engine.dispatch view (regions ++ later) =
      (engine.dispatch view regions).append (engine.dispatch view later) := by
  induction regions with
  | nil => simp [dispatch, Dispatched.append, Dispatched.nothing]
  | cons region rest inductionHypothesis =>
      calc
        engine.dispatch view (region :: (rest ++ later)) =
            (engine.dispatchRegion view region).append (engine.dispatch view (rest ++ later)) := rfl
        _ = (engine.dispatchRegion view region).append
              ((engine.dispatch view rest).append (engine.dispatch view later)) := by
            rw [inductionHypothesis]
        _ = ((engine.dispatchRegion view region).append (engine.dispatch view rest)).append
              (engine.dispatch view later) := by
            simp only [Dispatched.append, List.append_assoc, Nat.max_assoc]

end Engine

end Heredoc
