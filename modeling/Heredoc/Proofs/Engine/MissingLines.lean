import Heredoc.Proofs.Engine.Interleaving
import Heredoc.Proofs.Scan.Exactness

/-!
# Buffers that cannot show all their lines

A check looks at the lines of a buffer one by one and starts validators only when it has seen them
all. So the first line that is missing ends it, whatever the other lines say and whichever tags are
known, and no validator is called. Main statements: where a scan fails (`Scan.scan_eq_error_iff`),
what a check does up to the first missing line and past it (`Validation.foldl_step_of_firstHole`),
and both together (`holes_end_a_check`).
-/

namespace Heredoc

/-- The least line below the claimed count that the buffer cannot show. -/
structure View.FirstHole (view : View) (index : Nat) : Prop where
  below : index < view.lineCount
  absent : view.line index = none
  shown : ∀ earlier < index, (view.line earlier).isSome = true

/-! ## Scans -/

namespace Scan

variable {table : TagTable} {view : View}

theorem scan_of_firstHole {index : Nat} (hole : view.FirstHole index) (table : TagTable) :
    scan table view = .error ⟨view.id, index, view.lineCount⟩ := by
  rw [← loop_eq_scan]
  exact loop_eq_error hole.absent hole.below hole.shown [] (.seeking 0) (Nat.zero_le index)

theorem exists_firstHole_of_scan
    {missing : MissingLine} (failed : scan table view = .error missing) :
    ∃ index, view.FirstHole index ∧ missing = ⟨view.id, index, view.lineCount⟩ := by
  rw [scan, View.lines] at failed
  cases read : readLines view.line 0 view.lineCount with
  | ok lines =>
      rw [read] at failed
      cases failed
  | error index =>
      rw [read] at failed
      obtain ⟨absent, below, shown⟩ := readLines_eq_error read
      rw [Nat.zero_add] at below
      exact ⟨index, ⟨below, absent, fun earlier => shown earlier (Nat.zero_le _)⟩,
        (Except.error.inj failed).symm⟩

theorem scan_eq_error_iff {missing : MissingLine} :
    scan table view = .error missing ↔
      ∃ index, view.FirstHole index ∧ missing = ⟨view.id, index, view.lineCount⟩ := by
  constructor
  · exact exists_firstHole_of_scan
  · rintro ⟨index, hole, rfl⟩
    exact scan_of_firstHole hole table

theorem exists_scan_eq_ok_iff :
    (∃ regions, scan table view = .ok regions) ↔
      ∀ index < view.lineCount, (view.line index).isSome = true := by
  constructor
  · rintro ⟨regions, found⟩ index below
    rw [scan, View.lines] at found
    cases read : readLines view.line 0 view.lineCount with
    | error missing =>
        rw [read] at found
        cases found
    | ok lines =>
        obtain ⟨total, shown⟩ := line_eq_of_readLines read
        rw [total] at below
        rw [shown index below, List.getElem?_eq_getElem below]
        rfl
  · intro whole
    obtain ⟨lines, read⟩ := exists_readLines whole
    rw [scan, View.lines, read]
    exact ⟨_, rfl⟩

theorem firstHole_congr
    {other : View} (sameCount : other.lineCount = view.lineCount)
    (sameHoles : ∀ index < view.lineCount, (other.line index).isSome = (view.line index).isSome)
    {index : Nat} (hole : other.FirstHole index) : view.FirstHole index := by
  have below : index < view.lineCount := sameCount ▸ hole.below
  refine ⟨below, ?_, ?_⟩
  · have absent := sameHoles index below
    rw [hole.absent] at absent
    exact Option.isNone_iff_eq_none.mp (Option.isSome_eq_false_iff.mp absent.symm)
  · intro earlier before
    rw [← sameHoles earlier (Nat.lt_trans before below)]
    exact hole.shown earlier before

end Scan

/-! ## Checks step by step -/

/-- A check under way: it looks at the lines one by one, then it sends off the regions found. -/
inductive Validation where
  | scanning (found : List Region) (state : Scan.State)
  | failed (missing : MissingLine)
  | dispatching (state : Dispatching)

namespace Validation

/-- What can happen next. -/
inductive Event where
  | look
  | dispatch (event : Dispatching.Event)
deriving DecidableEq, Repr

/-- Looks at the next line, or goes back or on at the end of the buffer. -/
def look (tags : List String) (view : View) (found : List Region) (state : Scan.State) :
    Validation :=
  if state.index < view.lineCount then
    match view.line state.index with
    | none => .failed ⟨view.id, state.index, view.lineCount⟩
    | some line => .scanning (found ++ (state.read tags line).2.toList) (state.read tags line).1
  else
    match state with
    | .seeking _ => .dispatching (.start found)
    | .within _ marker _ => .scanning found (.seeking (marker + 1))

/-- Carries out an event; one that cannot happen yet, or not any more, changes nothing. -/
def step (engine : Engine) (view : View) (outcomes : Nat → Outcome) :
    Validation → Event → Validation
  | .scanning found state, .look => look engine.tags.tags view found state
  | .dispatching state, .dispatch event => .dispatching (state.step engine view outcomes event)
  | state, _ => state

/-- A check after some events. -/
def run (engine : Engine) (view : View) (outcomes : Nat → Outcome) (events : List Event) :
    Validation :=
  events.foldl (step engine view outcomes) (.scanning [] (.seeking 0))

/-- The calls of validators so far. -/
def calls : Validation → List Call
  | .dispatching state => state.ended ++ state.running
  | _ => []

/-- The check is on the way to what a scan gives. -/
inductive Sound (engine : Engine) (view : View) (outcomes : Nat → Outcome) : Validation → Prop where
  | scanning {found : List Region} {state : Scan.State}
      (ahead : Scan.loop engine.tags.tags view found state = scan engine.tags view) :
      Sound engine view outcomes (.scanning found state)
  | failed {missing : MissingLine}
      (failed : scan engine.tags view = .error missing) :
      Sound engine view outcomes (.failed missing)
  | dispatching {regions : List Region} {events : List Dispatching.Event}
      (scanned : scan engine.tags view = .ok regions) :
      Sound engine view outcomes (.dispatching (.run engine view outcomes regions events))

variable {engine : Engine} {view : View} {outcomes : Nat → Outcome}

theorem Sound.look
    {found : List Region} {state : Scan.State}
    (ahead : Scan.loop engine.tags.tags view found state = scan engine.tags view) :
    Sound engine view outcomes (look engine.tags.tags view found state) := by
  rw [Scan.loop] at ahead
  unfold Validation.look
  by_cases inside : state.index < view.lineCount
  · rw [dif_pos inside] at ahead
    rw [if_pos inside]
    cases shown : view.line state.index with
    | none =>
        rw [shown] at ahead
        exact .failed ahead.symm
    | some line =>
        rw [shown] at ahead
        exact .scanning ahead
  · rw [dif_neg inside] at ahead
    rw [if_neg inside]
    cases state with
    | seeking index => exact @dispatching engine view outcomes found [] ahead.symm
    | within tag marker length => exact .scanning ahead

theorem Sound.step
    {state : Validation} (sound : Sound engine view outcomes state) (event : Event) :
    Sound engine view outcomes (state.step engine view outcomes event) := by
  cases sound with
  | scanning ahead =>
      cases event with
      | look => exact .look ahead
      | dispatch event => exact .scanning ahead
  | failed failed => exact .failed failed
  | @dispatching regions events scanned =>
      cases event with
      | look => exact .dispatching scanned
      | dispatch event =>
          have further :
              Dispatching.run engine view outcomes regions (events ++ [event]) =
                (Dispatching.run engine view outcomes regions events).step
                  engine view outcomes event :=
            Dispatching.run_append events [event]
          rw [Validation.step, ← further]
          exact .dispatching scanned

theorem sound_run
    (engine : Engine) (view : View) (outcomes : Nat → Outcome) (events : List Event) :
    Sound engine view outcomes (run engine view outcomes events) := by
  induction events using List.reverseRecOn with
  | nil => exact .scanning (Scan.loop_eq_scan engine.tags view)
  | append_singleton earlier event inductionHypothesis =>
      rw [run, List.foldl_append]
      exact inductionHypothesis.step event

theorem foldl_step_failed (missing : MissingLine) (events : List Event) :
    events.foldl (step engine view outcomes) (.failed missing) = .failed missing := by
  induction events with
  | nil => rfl
  | cons event rest inductionHypothesis => exact inductionHypothesis

/-- Up to the first missing line a check only looks at lines, and there it ends. -/
theorem foldl_step_of_firstHole
    {index : Nat} (hole : view.FirstHole index) (events : List Event)
    (found : List Region) (state : Scan.State) (reached : state.index ≤ index) :
    (state.index + events.count .look ≤ index ∧
        ∃ later next,
          events.foldl (step engine view outcomes) (.scanning found state) =
            .scanning later next) ∨
      (index < state.index + events.count .look ∧
        events.foldl (step engine view outcomes) (.scanning found state) =
          .failed ⟨view.id, index, view.lineCount⟩) := by
  induction events generalizing found state with
  | nil => exact .inl ⟨reached, found, state, rfl⟩
  | cons event rest inductionHypothesis =>
      cases event with
      | dispatch event =>
          rw [List.count_cons_of_ne (by simp)]
          exact inductionHypothesis found state reached
      | look =>
          have inside : state.index < view.lineCount := Nat.lt_of_le_of_lt reached hole.below
          rw [List.count_cons_self, List.foldl_cons, step]
          unfold look
          rw [if_pos inside]
          rcases Nat.eq_or_lt_of_le reached with here | before
          · rw [here, hole.absent]
            exact .inr ⟨by omega, foldl_step_failed _ rest⟩
          · obtain ⟨line, shown⟩ := Option.isSome_iff_exists.mp (hole.shown state.index before)
            have later :=
              inductionHypothesis
                (found ++ (state.read engine.tags.tags line).2.toList)
                (state.read engine.tags.tags line).1
                (by rw [Scan.State.index_read]; exact before)
            rw [Scan.State.index_read] at later
            rw [shown, ← Nat.add_assoc, Nat.add_right_comm]
            exact later

end Validation

/-- A scan fails exactly on a buffer that cannot show a line it claims to have, at the first such
line, and it does so for every text of the other lines and for every table of tags. A check of a
document never fails; a check of such a buffer fails with the scan and calls no validator on the
way. -/
theorem holes_end_a_check (engine : Engine) (view : View) :
    (∀ missing,
        scan engine.tags view = .error missing ↔
          ∃ index, view.FirstHole index ∧ missing = ⟨view.id, index, view.lineCount⟩) ∧
      ((∃ regions, scan engine.tags view = .ok regions) ↔
        ∀ index < view.lineCount, (view.line index).isSome = true) ∧
        Scan.loop engine.tags.tags view [] (.seeking 0) = scan engine.tags view ∧
          (∀ (table : TagTable) (other : View),
            other.id = view.id → other.lineCount = view.lineCount →
              (∀ index < view.lineCount,
                (other.line index).isSome = (view.line index).isSome) →
                ∀ missing,
                  scan table other = .error missing ↔ scan engine.tags view = .error missing) ∧
            (∀ document : Document,
              (∃ dispatched, engine.validate document.view = .ok dispatched) ∧
                ∀ outcomes events missing,
                  Validation.run engine document.view outcomes events ≠ .failed missing) ∧
              ∀ index, view.FirstHole index →
                engine.validate view = .error ⟨view.id, index, view.lineCount⟩ ∧
                  ∀ outcomes events,
                    (Validation.run engine view outcomes events).calls = [] ∧
                      (index < events.count .look →
                        Validation.run engine view outcomes events =
                          .failed ⟨view.id, index, view.lineCount⟩) := by
  refine ⟨fun missing => Scan.scan_eq_error_iff, Scan.exists_scan_eq_ok_iff,
    Scan.loop_eq_scan engine.tags view, ?_, ?_, ?_⟩
  · intro table other sameId sameCount sameHoles missing
    rw [Scan.scan_eq_error_iff, Scan.scan_eq_error_iff, sameId, sameCount]
    constructor
    · rintro ⟨index, hole, rfl⟩
      exact ⟨index, Scan.firstHole_congr sameCount sameHoles hole, rfl⟩
    · rintro ⟨index, hole, rfl⟩
      refine ⟨index, Scan.firstHole_congr sameCount.symm ?_ hole, rfl⟩
      exact fun index below => (sameHoles index (sameCount ▸ below)).symm
  · intro document
    have valid := engine.validate_view document
    refine ⟨⟨_, valid⟩, ?_⟩
    intro outcomes events missing failed
    have sound := Validation.sound_run engine document.view outcomes events
    rw [failed] at sound
    cases sound with
    | failed scanFailed =>
        rw [Engine.validate, scanFailed] at valid
        cases valid
  · intro index hole
    refine ⟨?_, ?_⟩
    · rw [Engine.validate, Scan.scan_of_firstHole hole]
      rfl
    · intro outcomes events
      have ends :
          (0 + events.count .look ≤ index ∧
              ∃ later next,
                Validation.run engine view outcomes events = .scanning later next) ∨
            (index < 0 + events.count .look ∧
              Validation.run engine view outcomes events =
                .failed ⟨view.id, index, view.lineCount⟩) :=
        Validation.foldl_step_of_firstHole hole events [] (.seeking 0) (Nat.zero_le index)
      rw [Nat.zero_add] at ends
      rcases ends with ⟨short, found, state, same⟩ | ⟨-, same⟩
      · refine ⟨by rw [same]; rfl, ?_⟩
        intro past
        exact absurd past (Nat.not_lt.mpr short)
      · exact ⟨by rw [same]; rfl, fun _ => same⟩

end Heredoc
