import Heredoc.Proofs.Engine.View
import Heredoc.Proofs.Schedule.Run

/-!
# What each step does to a track

One lemma says all that the firing of a timer can do, and one all that the end of a pass can do.
From them comes a relation between a track and what an action makes of it (`Track.Becomes`). Proofs
about runs split along its cases and do not look into the steps again.
-/

namespace Heredoc

/-- Whether the action is the firing of a timer or the end of a pass. -/
def Action.isInternal : Action → Bool
  | .fire | .finish _ => true
  | .add _ | .edit .. | .tear .. | .notify _ | .force _ | .close => false

/-- How an entry is left when its timer has fired and nothing had to be read. -/
def Entry.skip (entry : Entry) : Entry :=
  ({ entry with timer := none } : Entry).enter.leave

namespace Track

/-! ## The start of a pass -/

theorem fst_reading (engine : Engine) (view : View) :
    (reading engine view).1 = engine.diagnose view := by
  unfold reading Engine.diagnose
  cases engine.validate view <;> rfl

/-- The pass that starts over a source. -/
def begun (engine : Engine) (now : Nat) (forced : Bool) (number : Nat) (track : Track) : Pass where
  number := track.started
  source := number
  version := (track.source number).document.version
  forced
  due := now + (reading engine (track.source number).view).2.2
  result := engine.diagnose (track.source number).view

theorem start_eq
    (engine : Engine) (now : Nat) (forced : Bool) (number : Nat) (track : Track) :
    start engine now forced number track =
      { track with
        passes := track.passes ++ [begun engine now forced number track]
        started := track.started + 1
        calls := track.calls ++ (reading engine (track.source number).view).2.1 } := by
  rw [begun, ← fst_reading]
  rfl

/-! ## The firing of a timer -/

theorem armed?_eq_some {track : Track} {entry : Entry} {timer : Timer} :
    track.armed? = some (entry, timer) ↔
      track.entry = some entry ∧ entry.timer = some timer := by
  unfold armed?
  cases track.entry with
  | none => simp
  | some known =>
      cases armed : known.timer with
      | none =>
          simp only [Option.bind_some, armed, Option.map_none, reduceCtorEq, false_iff,
            Option.some.injEq, not_and]
          rintro rfl
          simp [armed]
      | some timer =>
          simp only [Option.bind_some, armed, Option.map_some, Option.some.injEq, Prod.mk.injEq]
          constructor
          · rintro ⟨rfl, rfl⟩
            exact ⟨rfl, armed⟩
          · rintro ⟨rfl, sameTimer⟩
            rw [armed] at sameTimer
            exact ⟨rfl, Option.some.inj sameTimer⟩

/-- A timer that fires skips a version that was checked before, or else starts a pass. -/
theorem fire_cases
    (engine : Engine) (entry : Entry) (timer : Timer) (track : Track) :
    (track.cached = some (track.source timer.source).document.version ∧
      ∃ report : Report, report.outcome = .unchanged ∧
        track.fire engine entry timer =
          { track with
            entry := some entry.skip
            reports := track.reports ++ [report] }) ∨
    (track.cached ≠ some (track.source timer.source).document.version ∧
      track.fire engine entry timer =
        start engine timer.due false timer.source
          { track with entry := some ({ entry with timer := none } : Entry).enter }) := by
  unfold fire
  by_cases checked : track.cached = some (track.source timer.source).document.version
  · left
    refine ⟨checked, ?_⟩
    rw [if_pos checked]
    exact ⟨_, rfl, rfl⟩
  · right
    refine ⟨checked, ?_⟩
    rw [if_neg checked]

theorem fireDue_of_due
    {track : Track} {entry : Entry} {timer : Timer} {now : Nat}
    (armed : track.armed? = some (entry, timer)) (due : timer.due ≤ now) (engine : Engine) :
    track.fireDue engine now = track.fire engine entry timer := by
  rw [fireDue, armed]
  exact if_pos due

/-- Either nothing is due, or the timer of the track fires. -/
theorem fireDue_cases (engine : Engine) (now : Nat) (track : Track) :
    track.fireDue engine now = track ∨
      ∃ entry timer,
        track.entry = some entry ∧ entry.timer = some timer ∧ timer.due ≤ now ∧
          track.fireDue engine now = track.fire engine entry timer := by
  unfold fireDue
  cases armed : track.armed? with
  | none => exact .inl rfl
  | some pair =>
      obtain ⟨entry, timer⟩ := pair
      obtain ⟨tracked, holds⟩ := armed?_eq_some.mp armed
      by_cases due : timer.due ≤ now
      · exact .inr ⟨entry, timer, tracked, holds, due, by simp [due]⟩
      · left
        simp [due]

/-! ## The end of a pass -/

theorem accepts_eq_true {track : Track} {pass : Pass} :
    track.accepts pass = true ↔
      ∃ entry,
        track.entry = some entry ∧
          (track.source pass.source).document.version = pass.version ∧
            ∀ version, entry.published = some version → version ≤ pass.version := by
  unfold accepts
  cases track.entry with
  | none => simp
  | some entry =>
      cases published : entry.published with
      | none => simp [published]
      | some version => simp [published]

/-- A pass publishes what it found if its result is still wanted. -/
theorem outcomeOf_eq_published
    {track : Track} {pass : Pass} {diagnostics : List Diagnostic} :
    track.outcomeOf pass = .published diagnostics ↔
      pass.result = .ok diagnostics ∧ track.accepts pass = true := by
  unfold outcomeOf
  cases pass.result with
  | error missing => simp
  | ok found =>
      cases track.accepts pass <;> simp

/-- The report of a pass that is done. -/
def ending (track : Track) (pass : Pass) : Report where
  time := pass.due
  buffer := track.id
  version := pass.version
  forced := pass.forced
  outcome := track.outcomeOf pass
  number := some pass.number

/-- A pass that publishes shows what it found and notes its version in the cache and in the
entry. -/
theorem complete_of_published
    {track : Track} {pass : Pass} {entry : Entry} {diagnostics : List Diagnostic}
    (tracked : track.entry = some entry)
    (published : track.outcomeOf pass = .published diagnostics) :
    track.complete pass =
      { track with
        entry := some ({ entry with published := some pass.version } : Entry).leave
        passes := track.passes.filter (·.number ≠ pass.number)
        cached := some pass.version
        shown := some diagnostics
        publishes := track.publishes + 1
        reports := track.reports ++ [track.ending pass] } := by
  simp only [complete, absorb, release, announce, ending, published, tracked, Option.map_some]

/-- A pass that does not publish only leaves. -/
theorem complete_of_not_published
    {track : Track} {pass : Pass}
    (withheld : ∀ diagnostics, track.outcomeOf pass ≠ .published diagnostics) :
    track.complete pass =
      { track with
        entry := track.entry.map Entry.leave
        passes := track.passes.filter (·.number ≠ pass.number)
        reports := track.reports ++ [track.ending pass] } := by
  unfold complete ending
  cases outcome : track.outcomeOf pass with
  | published diagnostics => exact absurd outcome (withheld diagnostics)
  | unchanged => rfl
  | discarded => rfl
  | failed message => rfl

/-- All that the end of a pass can do. -/
theorem complete_cases (track : Track) (pass : Pass) :
    (∃ entry diagnostics,
      track.entry = some entry ∧
      pass.result = .ok diagnostics ∧
      (track.source pass.source).document.version = pass.version ∧
      (∀ version, entry.published = some version → version ≤ pass.version) ∧
      track.outcomeOf pass = .published diagnostics ∧
      track.complete pass =
        { track with
          entry := some ({ entry with published := some pass.version } : Entry).leave
          passes := track.passes.filter (·.number ≠ pass.number)
          cached := some pass.version
          shown := some diagnostics
          publishes := track.publishes + 1
          reports := track.reports ++ [track.ending pass] }) ∨
    ((∀ diagnostics, track.outcomeOf pass ≠ .published diagnostics) ∧
      track.complete pass =
        { track with
          entry := track.entry.map Entry.leave
          passes := track.passes.filter (·.number ≠ pass.number)
          reports := track.reports ++ [track.ending pass] }) := by
  by_cases somePublished : ∃ diagnostics, track.outcomeOf pass = .published diagnostics
  · obtain ⟨diagnostics, published⟩ := somePublished
    obtain ⟨found, accepted⟩ := outcomeOf_eq_published.mp published
    obtain ⟨entry, tracked, current, newest⟩ := accepts_eq_true.mp accepted
    exact .inl ⟨entry, diagnostics, tracked, found, current, newest, published,
      complete_of_published tracked published⟩
  · have withheld : ∀ diagnostics, track.outcomeOf pass ≠ .published diagnostics :=
      fun diagnostics published => somePublished ⟨diagnostics, published⟩
    exact .inr ⟨withheld, complete_of_not_published withheld⟩

theorem passes_complete (track : Track) (pass : Pass) :
    (track.complete pass).passes = track.passes.filter (·.number ≠ pass.number) := by
  rcases complete_cases track pass with ⟨_, _, _, _, _, _, _, published⟩ | ⟨_, withheld⟩
  · rw [published]
  · rw [withheld]

theorem sources_complete (track : Track) (pass : Pass) :
    (track.complete pass).sources = track.sources := by
  rcases complete_cases track pass with ⟨_, _, _, _, _, _, _, published⟩ | ⟨_, withheld⟩
  · rw [published]
  · rw [withheld]

theorem started_complete (track : Track) (pass : Pass) :
    (track.complete pass).started = track.started := by
  rcases complete_cases track pass with ⟨_, _, _, _, _, _, _, published⟩ | ⟨_, withheld⟩
  · rw [published]
  · rw [withheld]

theorem timer_complete (track : Track) (pass : Pass) :
    (track.complete pass).entry.bind Entry.timer = track.entry.bind Entry.timer := by
  rcases complete_cases track pass with
    ⟨entry, _, tracked, _, _, _, _, published⟩ | ⟨_, withheld⟩
  · rw [published, tracked]
    rfl
  · rw [withheld]
    cases track.entry <;> rfl

/-- Either no pass has this number, or the pass that has it ends. -/
theorem finish_cases (number : Nat) (track : Track) :
    track.finish number = track ∨
      ∃ pass ∈ track.passes,
        pass.number = number ∧ track.finish number = track.complete pass := by
  unfold finish
  cases found : track.passes.find? (·.number = number) with
  | none => exact .inl rfl
  | some pass =>
      have matching : pass.number = number := by
        simpa using List.find?_some found
      exact .inr ⟨pass, List.mem_of_find?_eq_some found, matching, rfl⟩

theorem source_complete (track : Track) (pass : Pass) :
    (track.complete pass).source = track.source := by
  rcases complete_cases track pass with ⟨_, _, _, _, _, _, _, published⟩ | ⟨_, withheld⟩
  · rw [published]
    rfl
  · rw [withheld]
    rfl

/-! ## All actions -/

/-- What an action can make of a track. An action of the host does one thing; a timer rests, skips
or starts a pass; a pass rests, publishes or is withheld. -/
inductive Becomes (engine : Engine) (debounce now : Nat) (track : Track) :
    Action → Track → Prop where
  | adds (source : Source) :
      Becomes engine debounce now track (.add source) (track.addSource source)
  | edits (number : Nat) (edit : Edit) :
      Becomes engine debounce now track (.edit number edit)
        (track.modifySource number (·.edit edit))
  | tears (number : Nat) (torn : Bool) :
      Becomes engine debounce now track (.tear number torn)
        (track.modifySource number ({ · with torn }))
  | arms (number : Nat) :
      Becomes engine debounce now track (.notify number) (track.schedule debounce now number)
  | forces (number : Nat) :
      Becomes engine debounce now track (.force number)
        (start engine now true number
          { track with cached := none, entry := some (track.entry.getD {}).enter })
  | closes : Becomes engine debounce now track .close track.close
  /-- No timer is due, or no pass has this number. -/
  | rests {action : Action} (isInternal : action.isInternal = true) :
      Becomes engine debounce now track action track
  | skips {entry : Entry} {timer : Timer} {report : Report}
      (tracked : track.entry = some entry)
      (armed : entry.timer = some timer)
      (due : timer.due ≤ now)
      (checked : track.cached = some (track.source timer.source).document.version)
      (unchanged : report.outcome = .unchanged) :
      Becomes engine debounce now track .fire
        { track with
          entry := some entry.skip
          reports := track.reports ++ [report] }
  | starts {entry : Entry} {timer : Timer}
      (tracked : track.entry = some entry)
      (armed : entry.timer = some timer)
      (due : timer.due ≤ now)
      (unchecked : track.cached ≠ some (track.source timer.source).document.version) :
      Becomes engine debounce now track .fire
        (start engine timer.due false timer.source
          { track with entry := some ({ entry with timer := none } : Entry).enter })
  | publishes {pass : Pass} {entry : Entry} {diagnostics : List Diagnostic}
      (member : pass ∈ track.passes)
      (tracked : track.entry = some entry)
      (found : pass.result = .ok diagnostics)
      (current : (track.source pass.source).document.version = pass.version)
      (newest : ∀ version, entry.published = some version → version ≤ pass.version)
      (outcome : track.outcomeOf pass = .published diagnostics) :
      Becomes engine debounce now track (.finish pass.number)
        { track with
          entry := some ({ entry with published := some pass.version } : Entry).leave
          passes := track.passes.filter (·.number ≠ pass.number)
          cached := some pass.version
          shown := some diagnostics
          publishes := track.publishes + 1
          reports := track.reports ++ [track.ending pass] }
  | withholds {pass : Pass}
      (member : pass ∈ track.passes)
      (withheld : ∀ diagnostics, track.outcomeOf pass ≠ .published diagnostics) :
      Becomes engine debounce now track (.finish pass.number)
        { track with
          entry := track.entry.map Entry.leave
          passes := track.passes.filter (·.number ≠ pass.number)
          reports := track.reports ++ [track.ending pass] }

variable (engine : Engine) (debounce now : Nat) (track : Track)

theorem becomes_fireDue :
    track.Becomes engine debounce now .fire (track.fireDue engine now) := by
  rcases fireDue_cases engine now track with same | ⟨entry, timer, tracked, armed, due, fired⟩
  · rw [same]
    exact .rests rfl
  · rw [fired]
    rcases fire_cases engine entry timer track with
      ⟨checked, report, unchanged, skipped⟩ | ⟨unchecked, started⟩
    · rw [skipped]
      exact .skips tracked armed due checked unchanged
    · rw [started]
      exact .starts tracked armed due unchecked

theorem becomes_finish (number : Nat) :
    track.Becomes engine debounce now (.finish number) (track.finish number) := by
  rcases finish_cases number track with same | ⟨pass, member, rfl, ended⟩
  · rw [same]
    exact .rests rfl
  · rw [ended]
    rcases complete_cases track pass with
      ⟨entry, diagnostics, tracked, found, current, newest, outcome, published⟩ |
        ⟨withheld, dropped⟩
    · rw [published]
      exact .publishes member tracked found current newest outcome
    · rw [dropped]
      exact .withholds member withheld

/-- All that an action can do to a track. -/
theorem becomes_act (action : Action) :
    track.Becomes engine debounce now action (track.act engine debounce now action) := by
  cases action with
  | add source => exact .adds source
  | edit number edit => exact .edits number edit
  | tear number torn => exact .tears number torn
  | notify number => exact .arms number
  | force number => exact .forces number
  | close => exact .closes
  | fire => exact track.becomes_fireDue engine debounce now
  | finish number => exact track.becomes_finish engine debounce now number

/-- A timer or a pass neither makes a buffer tracked nor stops it from being so, and it leaves the
sources alone. -/
theorem act_of_isInternal {action : Action} (isInternal : action.isInternal = true) :
    (track.act engine debounce now action).entry.isSome = track.entry.isSome ∧
      (track.act engine debounce now action).sources = track.sources ∧
        (track.act engine debounce now action).source = track.source := by
  have step := track.becomes_act engine debounce now action
  generalize track.act engine debounce now action = after at step ⊢
  cases step with
  | adds | edits | tears | arms | forces | closes => cases isInternal
  | rests => exact ⟨rfl, rfl, rfl⟩
  | skips tracked => exact ⟨by rw [tracked]; rfl, rfl, rfl⟩
  | starts tracked =>
      rw [start_eq, tracked]
      exact ⟨rfl, rfl, rfl⟩
  | publishes _ tracked => exact ⟨by rw [tracked]; rfl, rfl, rfl⟩
  | withholds => exact ⟨Option.isSome_map, rfl, rfl⟩

end Track

end Heredoc
