import Heredoc.Engine

/-!
# The schedule of one buffer

A track is all that the scheduler knows of one buffer: its sources, its entry while it is
tracked, its passes in flight, its cached version and what is shown for it. An event arms a timer
that replaces the one before; when the timer falls due, a pass reads the buffer and, some time
later, publishes unless the buffer has moved on. Main statement: every step of a track uses up a
timer or a pass, so that a track comes to rest.
-/

namespace Heredoc

/-- A live buffer: its document, and whether its snapshots claim a line too many. -/
structure Source where
  document : Document
  torn : Bool
deriving DecidableEq, Repr, Inhabited

/-- What a snapshot of the source shows. -/
def Source.view (source : Source) : View :=
  if source.torn then source.document.view.withCount (source.document.lines.length + 1)
  else source.document.view

/-- What a tracked buffer is doing. -/
inductive Phase where
  | idle
  | pending
  | running
deriving DecidableEq, Repr, Inhabited

/-- The name of a phase. -/
def Phase.name : Phase → String
  | .idle => "Idle"
  | .pending => "Pending"
  | .running => "Running"

/-- A timer that starts a pass over a source; it knows the generation it was armed in. -/
structure Timer where
  due : Nat
  generation : Nat
  source : Nat
deriving DecidableEq, Repr

/-- What is known of a buffer while it is tracked. -/
structure Entry where
  phase : Phase := .idle
  /-- The number of events that armed a timer. -/
  generation : Nat := 0
  timer : Option Timer := none
  /-- The number of passes in flight. -/
  running : Nat := 0
  /-- The last published version. -/
  published : Option Nat := none
deriving DecidableEq, Repr, Inhabited

namespace Entry

/-- A pass starts. -/
def enter (entry : Entry) : Entry :=
  { entry with phase := .running, running := entry.running + 1 }

/-- A pass ends. -/
def leave (entry : Entry) : Entry :=
  let running := entry.running - 1
  { entry with
    running
    phase :=
      if running = 0 then (if entry.timer.isSome then .pending else .idle) else entry.phase }

/-- An event arms a timer. -/
def arm (entry : Entry) (due source : Nat) : Entry :=
  let generation := entry.generation + 1
  { entry with
    generation
    timer := some ⟨due, generation, source⟩
    phase := if entry.running = 0 then .pending else entry.phase }

@[simp] theorem timer_enter (entry : Entry) : entry.enter.timer = entry.timer := rfl

@[simp] theorem timer_leave (entry : Entry) : entry.leave.timer = entry.timer := rfl

end Entry

/-- A pass in flight: what it read, when it is done, and what it will have found. -/
structure Pass where
  number : Nat
  source : Nat
  version : Nat
  forced : Bool
  due : Nat
  result : Except MissingLine (List Diagnostic)
deriving Repr

/-- How a pass ended. -/
inductive PassOutcome where
  | published (diagnostics : List Diagnostic)
  /-- The version had been checked before, and nothing was run. -/
  | unchanged
  /-- The buffer moved on or was closed. -/
  | discarded
  | failed (message : String)
deriving DecidableEq, Repr

/-- The announcement of a pass that ended. -/
structure Report where
  time : Nat
  buffer : BufferId
  version : Nat
  forced : Bool
  outcome : PassOutcome
  /-- The number of the pass; one that ran nothing has none. -/
  number : Option Nat
deriving DecidableEq, Repr

/-- All that is known of one buffer. -/
structure Track where
  id : BufferId
  sources : List Source
  entry : Option Entry
  /-- The passes in flight in the order in which they started. -/
  passes : List Pass
  /-- The number of passes that started. -/
  started : Nat
  /-- The last checked version. -/
  cached : Option Nat
  /-- What is shown for the buffer. -/
  shown : Option (List Diagnostic)
  /-- How often something was published. -/
  publishes : Nat
  /-- The keys of the validators that ran. -/
  calls : List String
  reports : List Report
deriving Repr

namespace Track

/-- The track of a buffer that nothing is known of. -/
def empty (id : BufferId) : Track :=
  ⟨id, [], none, [], 0, none, none, 0, [], []⟩

/-- A source by its number. -/
def source (track : Track) (number : Nat) : Source :=
  track.sources.getD number ⟨⟨track.id, 0, []⟩, false⟩

/-- Adds a source; its number is how many there were before. -/
def addSource (track : Track) (source : Source) : Track :=
  { track with sources := track.sources ++ [source] }

/-- Changes a source in place. -/
def modifySource (track : Track) (number : Nat) (change : Source → Source) : Track :=
  { track with sources := track.sources.modify number change }

/-- Announces a pass that ended. -/
def announce (track : Track) (report : Report) : Track :=
  { track with reports := track.reports ++ [report] }

/-! ## Events -/

/-- An event: a timer takes the place of the one before. -/
def schedule (debounce now source : Nat) (track : Track) : Track :=
  { track with entry := some ((track.entry.getD {}).arm (now + debounce) source) }

/-- The buffer is closed: it is no longer tracked, and nothing is cached or shown for it. -/
def close (track : Track) : Track :=
  { track with entry := none, cached := none, shown := none }

/-- The buffer is no longer tracked; what is cached and shown stays. -/
def forget (track : Track) : Track :=
  { track with entry := none }

/-! ## Passes -/

/-- What a pass over a view will find, which validators it runs and how long that takes. -/
def reading (engine : Engine) (view : View) :
    Except MissingLine (List Diagnostic) × List String × Nat :=
  match engine.validate view with
  | .ok dispatched => (.ok dispatched.diagnostics, dispatched.calls, dispatched.duration)
  | .error missing => (.error missing, [], 0)

/-- Starts a pass over a source: it reads the source now. -/
def start (engine : Engine) (now : Nat) (forced : Bool) (number : Nat) (track : Track) : Track :=
  let source := track.source number
  let (result, calls, duration) := reading engine source.view
  let pass : Pass :=
    { number := track.started
      source := number
      version := source.document.version
      forced
      due := now + duration
      result }
  { track with
    passes := track.passes ++ [pass]
    started := track.started + 1
    calls := track.calls ++ calls }

/-- Starts a pass at once, whatever is cached. -/
def force (engine : Engine) (now source : Nat) (track : Track) : Track :=
  start engine now true source
    { track with cached := none, entry := some (track.entry.getD {}).enter }

/-- A timer falls due. A version that was checked before is not checked again. -/
def fire (engine : Engine) (entry : Entry) (timer : Timer) (track : Track) : Track :=
  let entered := { entry with timer := none }.enter
  let version := (track.source timer.source).document.version
  if track.cached = some version then
    { track with entry := some entered.leave }.announce
      { time := timer.due, buffer := track.id, version, forced := false,
        outcome := .unchanged, number := none }
  else start engine timer.due false timer.source { track with entry := some entered }

/-- Whether the result of a pass is still wanted: its buffer is tracked, has the version that was
read, and nothing newer was published. -/
def accepts (track : Track) (pass : Pass) : Bool :=
  match track.entry with
  | none => false
  | some entry =>
      (track.source pass.source).document.version = pass.version &&
        !(entry.published.any (· > pass.version))

/-- How a pass that is done ends. -/
def outcomeOf (track : Track) (pass : Pass) : PassOutcome :=
  match pass.result with
  | .error missing => .failed missing.message
  | .ok diagnostics =>
      if track.accepts pass then .published diagnostics else .discarded

/-- Takes in how a pass ended: only one that publishes changes anything. -/
def absorb (version : Nat) (outcome : PassOutcome) (track : Track) : Track :=
  match outcome with
  | .published diagnostics =>
      { track with
        entry := track.entry.map fun entry => { entry with published := some version }
        shown := some diagnostics
        publishes := track.publishes + 1
        cached := some version }
  | _ => track

/-- Takes a pass out of those in flight. -/
def release (pass : Pass) (track : Track) : Track :=
  { track with
    passes := track.passes.filter (·.number ≠ pass.number)
    entry := track.entry.map Entry.leave }

/-- Ends a pass that is done. -/
def complete (pass : Pass) (track : Track) : Track :=
  let outcome := track.outcomeOf pass
  ((track.absorb pass.version outcome).release pass).announce
    { time := pass.due
      buffer := track.id
      version := pass.version
      forced := pass.forced
      outcome
      number := some pass.number }

/-! ## Time -/

/-- What happens next to a track. -/
inductive Step where
  | fire (entry : Entry) (timer : Timer)
  | complete (pass : Pass)

/-- The pass that is done first; of several, the one that started first. -/
def earliest : List Pass → Option Pass
  | [] => none
  | pass :: rest =>
      match earliest rest with
      | some other => if other.due < pass.due then some other else some pass
      | none => some pass

/-- The entry of a track together with its timer. -/
def armed? (track : Track) : Option (Entry × Timer) :=
  track.entry.bind fun entry => entry.timer.map fun timer => (entry, timer)

/-- The next step up to a time; a pass that is done comes before a timer that falls due. -/
def next? (limit : Nat) (track : Track) : Option Step :=
  let step := match earliest track.passes, track.armed? with
    | some pass, some (entry, timer) =>
        if pass.due ≤ timer.due then some (pass.due, Step.complete pass)
        else some (timer.due, Step.fire entry timer)
    | some pass, none => some (pass.due, Step.complete pass)
    | none, some (entry, timer) => some (timer.due, Step.fire entry timer)
    | none, none => none
  match step with
  | some (due, step) => if due ≤ limit then some step else none
  | none => none

/-- Carries out a step. -/
def perform (engine : Engine) (track : Track) : Step → Track
  | .fire entry timer => track.fire engine entry timer
  | .complete pass => track.complete pass

/-- What a track still has to do: a timer stands for its firing and for the pass it starts. -/
def work (track : Track) : Nat :=
  2 * track.armed?.isSome.toNat + track.passes.length

theorem mem_of_earliest {passes : List Pass} {pass : Pass} (h : earliest passes = some pass) :
    pass ∈ passes := by
  induction passes generalizing pass with
  | nil => simp [earliest] at h
  | cons first rest ih =>
    simp only [earliest] at h
    split at h
    · rename_i other found
      split at h
      · obtain rfl := Option.some.inj h
        exact List.mem_cons_of_mem _ (ih found)
      · obtain rfl := Option.some.inj h
        exact List.mem_cons_self
    · obtain rfl := Option.some.inj h
      exact List.mem_cons_self

/-- A step is about the timer, which is due, or about one of the passes of the track. -/
theorem next?_cases {limit : Nat} {track : Track} {step : Step}
    (h : track.next? limit = some step) :
    (∃ entry timer, step = .fire entry timer ∧ track.armed? = some (entry, timer) ∧
        timer.due ≤ limit) ∨
      ∃ pass, step = .complete pass ∧ pass ∈ track.passes := by
  simp only [next?] at h
  split at h
  · rename_i due chosen hstep
    split at h
    · rename_i hdue
      obtain rfl := Option.some.inj h
      split at hstep
      · rename_i pass entry timer hpass harmed
        split at hstep
        · simp only [Option.some.injEq, Prod.mk.injEq] at hstep
          exact .inr ⟨pass, hstep.2.symm, mem_of_earliest hpass⟩
        · simp only [Option.some.injEq, Prod.mk.injEq] at hstep
          exact .inl ⟨entry, timer, hstep.2.symm, harmed, hstep.1 ▸ hdue⟩
      · rename_i pass hpass _
        simp only [Option.some.injEq, Prod.mk.injEq] at hstep
        exact .inr ⟨pass, hstep.2.symm, mem_of_earliest hpass⟩
      · rename_i entry timer _ harmed
        simp only [Option.some.injEq, Prod.mk.injEq] at hstep
        exact .inl ⟨entry, timer, hstep.2.symm, harmed, hstep.1 ▸ hdue⟩
      · simp at hstep
    · simp at h
  · simp at h

theorem work_fire_lt (engine : Engine) {track : Track} {entry : Entry} {timer : Timer}
    (h : track.armed? = some (entry, timer)) :
    (track.fire engine entry timer).work < track.work := by
  have before : track.work = 2 + track.passes.length := by simp [work, h]
  rw [before]
  simp only [fire]
  split
  · simp [work, armed?, announce]
  · simp [work, armed?, start]
    omega

theorem length_filter_number_lt {passes : List Pass} {pass : Pass} (h : pass ∈ passes) :
    (passes.filter (·.number ≠ pass.number)).length < passes.length := by
  rw [List.length_filter_lt_length_iff_exists]
  exact ⟨pass, h, by simp⟩

theorem passes_absorb (version : Nat) (outcome : PassOutcome) (track : Track) :
    (track.absorb version outcome).passes = track.passes := by
  cases outcome <;> rfl

theorem isSome_armed?_absorb (version : Nat) (outcome : PassOutcome) (track : Track) :
    (track.absorb version outcome).armed?.isSome = track.armed?.isSome := by
  cases outcome <;> cases hentry : track.entry <;> simp [absorb, armed?, hentry]

theorem isSome_armed?_release (pass : Pass) (track : Track) :
    (track.release pass).armed?.isSome = track.armed?.isSome := by
  cases hentry : track.entry <;> simp [release, armed?, hentry]

theorem work_complete_lt {track : Track} {pass : Pass} (h : pass ∈ track.passes) :
    (track.complete pass).work < track.work := by
  have armed : (track.complete pass).armed?.isSome = track.armed?.isSome :=
    (isSome_armed?_release pass _).trans (isSome_armed?_absorb ..)
  have passes : (track.complete pass).passes.length < track.passes.length := by
    simpa [complete, announce, release, passes_absorb] using length_filter_number_lt h
  simp only [work, armed]
  omega

theorem work_perform_lt (engine : Engine) {limit : Nat} {track : Track} {step : Step}
    (h : track.next? limit = some step) :
    (track.perform engine step).work < track.work := by
  rcases next?_cases h with ⟨entry, timer, rfl, harmed, _⟩ | ⟨pass, rfl, hpass⟩
  · exact work_fire_lt engine harmed
  · exact work_complete_lt hpass

/-- Carries out all steps up to a time, in order. -/
def runTo (engine : Engine) (limit : Nat) (track : Track) : Track :=
  match _h : track.next? limit with
  | none => track
  | some step => (track.perform engine step).runTo engine limit
termination_by track.work
decreasing_by exact work_perform_lt engine _h

end Track

end Heredoc
