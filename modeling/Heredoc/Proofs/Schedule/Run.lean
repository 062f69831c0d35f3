import Heredoc.Schedule.Scheduler
import Mathlib.Data.List.Induction

/-!
# Runs of a scheduler

A run is a list of moves, in any order: what the scheduler is asked to do, the edits of the
documents, the passing of time, the firing of a timer that is due, and the end of a pass. When a
pass ends is left open, so that validators may take any time, another one at each call.

Main statements: an action changes the track of one buffer (`Scheduler.track_act`), and what every
action on a buffer keeps holds of its track in every run (`Scheduler.track_run`).
-/

namespace Heredoc

/-- Changes the document of a source. -/
def Source.edit (source : Source) (edit : Edit) : Source :=
  { source with document := edit.apply source.document }

/-- What can happen to one buffer. Sources and passes go by their numbers. -/
inductive Action where
  | add (source : Source)
  | edit (number : Nat) (edit : Edit)
  | tear (number : Nat) (torn : Bool)
  /-- The buffer was opened, changed, saved or activated. -/
  | notify (number : Nat)
  | force (number : Nat)
  | close
  | fire
  | finish (number : Nat)
deriving DecidableEq

/-- What can happen in a run. -/
inductive Move where
  | on (id : BufferId) (action : Action)
  | wait (milliseconds : Nat)
  | shutdown
deriving DecidableEq

namespace Track

/-- Fires the timer if it is due. -/
def fireDue (engine : Engine) (now : Nat) (track : Track) : Track :=
  match track.armed? with
  | some (entry, timer) => if timer.due ≤ now then track.fire engine entry timer else track
  | none => track

/-- Ends the pass of this number if it is in flight. -/
def finish (number : Nat) (track : Track) : Track :=
  match track.passes.find? (·.number = number) with
  | some pass => track.complete pass
  | none => track

/-- Carries out an action. -/
def act (engine : Engine) (debounce now : Nat) (track : Track) : Action → Track
  | .add source => track.addSource source
  | .edit number edit => track.modifySource number (·.edit edit)
  | .tear number torn => track.modifySource number fun source => { source with torn }
  | .notify number => track.schedule debounce now number
  | .force number => track.force engine now number
  | .close => track.close
  | .fire => track.fireDue engine now
  | .finish number => track.finish number

end Track

namespace Scheduler

/-- Carries out an action on a buffer. -/
def act (scheduler : Scheduler) (id : BufferId) : Action → Scheduler
  | .add source => (scheduler.addSource id source).2
  | .edit number edit => scheduler.modifySource id number (·.edit edit)
  | .tear number torn => scheduler.modifySource id number fun source => { source with torn }
  | .notify number => scheduler.notify id number
  | .force number => scheduler.force id number
  | .close => scheduler.close id
  | .fire => scheduler.update id (·.fireDue scheduler.engine scheduler.now)
  | .finish number => scheduler.update id (·.finish number)

/-- Carries out a move. -/
def apply (scheduler : Scheduler) : Move → Scheduler
  | .on id action => scheduler.act id action
  | .wait milliseconds => { scheduler with now := scheduler.now + milliseconds }
  | .shutdown => scheduler.shutdown

/-- Carries out moves, one after another. -/
def run (scheduler : Scheduler) (moves : List Move) : Scheduler :=
  moves.foldl apply scheduler

@[simp]
theorem run_nil (scheduler : Scheduler) :
    scheduler.run [] = scheduler := rfl

@[simp]
theorem run_cons (scheduler : Scheduler) (move : Move) (moves : List Move) :
    scheduler.run (move :: moves) = (scheduler.apply move).run moves := rfl

theorem run_append (scheduler : Scheduler) (moves later : List Move) :
    scheduler.run (moves ++ later) = (scheduler.run moves).run later :=
  List.foldl_append

/-! ## One track at a time -/

theorem track_update
    (scheduler : Scheduler) (id other : BufferId) (change : Track → Track) :
    (scheduler.update id change).track other =
      if id = other then change (scheduler.track other) else scheduler.track other := by
  simp only [track, update, Assoc.get?_put]
  by_cases same : id = other
  · subst same
    simp
  · simp [same]

theorem act_eq_update
    (scheduler : Scheduler) (id : BufferId) (action : Action) :
    scheduler.act id action =
      scheduler.update id
        (·.act scheduler.engine scheduler.debounce scheduler.now action) := by
  cases action <;> rfl

/-- An action on a buffer changes the track of that buffer and no other. -/
theorem track_act
    (scheduler : Scheduler) (id other : BufferId) (action : Action) :
    (scheduler.act id action).track other =
      if id = other then
        (scheduler.track other).act
          scheduler.engine scheduler.debounce scheduler.now action
      else scheduler.track other := by
  rw [act_eq_update, track_update]

@[simp]
theorem track_wait
    (scheduler : Scheduler) (milliseconds : Nat) (id : BufferId) :
    (scheduler.apply (.wait milliseconds)).track id = scheduler.track id := rfl

@[simp]
theorem track_shutdown (scheduler : Scheduler) (id : BufferId) :
    (scheduler.apply .shutdown).track id = (scheduler.track id).forget := by
  simp only [apply, shutdown, track, Assoc.get?_map]
  cases scheduler.tracks.get? id <;> rfl

/-- All that a move can do to the track of a buffer. -/
theorem track_apply_cases (scheduler : Scheduler) (id : BufferId) (move : Move) :
    (∃ action,
      move = .on id action ∧
        (scheduler.apply move).track id =
          (scheduler.track id).act scheduler.engine scheduler.debounce scheduler.now action) ∨
    (move = .shutdown ∧ (scheduler.apply move).track id = (scheduler.track id).forget) ∨
    ((∀ action, move ≠ .on id action) ∧ move ≠ .shutdown ∧
      (scheduler.apply move).track id = scheduler.track id) := by
  cases move with
  | on other action =>
      rw [apply, track_act]
      by_cases same : other = id
      · subst same
        exact .inl ⟨action, rfl, if_pos rfl⟩
      · exact .inr (.inr ⟨by simp [same], by simp, if_neg same⟩)
  | wait milliseconds => exact .inr (.inr ⟨by simp, by simp, rfl⟩)
  | shutdown => exact .inr (.inl ⟨rfl, track_shutdown scheduler id⟩)

@[simp]
theorem engine_apply (scheduler : Scheduler) (move : Move) :
    (scheduler.apply move).engine = scheduler.engine := by
  cases move with
  | on id action => rw [apply, act_eq_update]; rfl
  | wait milliseconds => rfl
  | shutdown => rfl

@[simp]
theorem debounce_apply (scheduler : Scheduler) (move : Move) :
    (scheduler.apply move).debounce = scheduler.debounce := by
  cases move with
  | on id action => rw [apply, act_eq_update]; rfl
  | wait milliseconds => rfl
  | shutdown => rfl

@[simp]
theorem engine_run (scheduler : Scheduler) (moves : List Move) :
    (scheduler.run moves).engine = scheduler.engine := by
  induction moves generalizing scheduler with
  | nil => rfl
  | cons move moves inductionHypothesis =>
      rw [run_cons, inductionHypothesis, engine_apply]

@[simp]
theorem debounce_run (scheduler : Scheduler) (moves : List Move) :
    (scheduler.run moves).debounce = scheduler.debounce := by
  induction moves generalizing scheduler with
  | nil => rfl
  | cons move moves inductionHypothesis =>
      rw [run_cons, inductionHypothesis, debounce_apply]

/-! ## What a run keeps -/

/-- What a track has to do with the moves so far holds after every run if each action on the buffer
and each shutdown keeps it, and every other move leaves it alone. -/
theorem track_run_history
    {kept : List Move → Track → Prop} {allowed : Action → Prop}
    (scheduler : Scheduler) (id : BufferId)
    (start : kept [] (scheduler.track id))
    (acts :
      ∀ past track now action,
        allowed action → kept past track →
          kept (past ++ [.on id action])
            (track.act scheduler.engine scheduler.debounce now action))
    (forgets :
      ∀ past track,
        kept past track → kept (past ++ [.shutdown]) track.forget)
    (passes :
      ∀ past track move,
        (∀ action, move ≠ .on id action) → move ≠ .shutdown →
          kept past track → kept (past ++ [move]) track)
    (moves : List Move)
    (within : ∀ action, .on id action ∈ moves → allowed action) :
    kept moves ((scheduler.run moves).track id) := by
  induction moves using List.reverseRecOn with
  | nil => exact start
  | append_singleton past move inductionHypothesis =>
      have before : kept past ((scheduler.run past).track id) :=
        inductionHypothesis fun action member =>
          within action (List.mem_append_left _ member)
      rw [run_append, run_cons, run_nil]
      cases move with
      | on other action =>
          rw [apply, track_act, engine_run, debounce_run]
          by_cases same : other = id
          · subst same
            rw [if_pos rfl]
            exact acts past _ _ action (within action (by simp)) before
          · rw [if_neg same]
            exact passes past _ _ (by simp [same]) (by simp) before
      | wait milliseconds =>
          rw [track_wait]
          exact passes past _ _ (by simp) (by simp) before
      | shutdown =>
          rw [track_shutdown]
          exact forgets past _ before

/-- What every action on a buffer and every shutdown keeps holds after every run. -/
theorem track_run
    {kept : Track → Prop} {allowed : Action → Prop}
    (scheduler : Scheduler) (id : BufferId)
    (start : kept (scheduler.track id))
    (acts :
      ∀ track now action,
        allowed action → kept track →
          kept (track.act scheduler.engine scheduler.debounce now action))
    (forgets : ∀ track, kept track → kept track.forget)
    (moves : List Move)
    (within : ∀ action, .on id action ∈ moves → allowed action) :
    kept ((scheduler.run moves).track id) :=
  @track_run_history (fun _ => kept) allowed scheduler id start
    (fun _ => acts) (fun _ => forgets) (fun _ _ _ _ _ held => held) moves within

end Scheduler

end Heredoc
