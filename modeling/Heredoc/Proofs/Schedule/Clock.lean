import Heredoc.Proofs.Schedule.Tidy

/-!
# Moving the clock is a run

The clock does what falls due in a fixed order: a pass that is done comes before a timer, and an
earlier pass before a later one. Each of these steps is a move of its own, so that whatever holds
of all runs holds of a scheduler whose clock is moved.
-/

namespace Heredoc

theorem Action.eq_of_isInternal
    {action : Action} (isInternal : action.isInternal = true) :
    action = .fire ∨ ∃ number, action = .finish number := by
  cases action with
  | fire => exact .inl rfl
  | finish number => exact .inr ⟨number, rfl⟩
  | add source => cases isInternal
  | edit number edit => cases isInternal
  | tear number torn => cases isInternal
  | notify number => cases isInternal
  | force number => cases isInternal
  | close => cases isInternal

/-- Whether the move is the passing of time, the firing of a timer or the end of a pass. -/
def Move.isInternal : Move → Bool
  | .on _ action => action.isInternal
  | .wait _ => true
  | .shutdown => false

namespace Track

/-- A step of the clock is an action. -/
theorem exists_act_eq_perform
    {track : Track} {limit : Nat} {step : Step}
    (tidy : track.Tidy)
    (chosen : track.next? limit = some step)
    (engine : Engine) (debounce : Nat) :
    ∃ action : Action,
      action.isInternal = true ∧
        track.act engine debounce limit action = track.perform engine step := by
  rcases next?_cases chosen with
    ⟨entry, timer, rfl, armed, due⟩ | ⟨pass, rfl, member⟩
  · exact ⟨.fire, rfl, fireDue_of_due armed due engine⟩
  · exact ⟨.finish pass.number, rfl, tidy.finish_eq_complete member⟩

/-- All steps up to a time are a list of actions. -/
theorem exists_acts_eq_runTo
    {track : Track} (tidy : track.Tidy)
    (engine : Engine) (debounce limit : Nat) :
    ∃ actions : List Action,
      (∀ action ∈ actions, action.isInternal = true) ∧
        actions.foldl (act engine debounce limit) track = track.runTo engine limit := by
  fun_induction runTo engine limit track with
  | case1 track atRest => exact ⟨[], by simp, rfl⟩
  | case2 track step chosen inductionHypothesis =>
      obtain ⟨action, isInternal, same⟩ := exists_act_eq_perform tidy chosen engine debounce
      have stillTidy : (track.perform engine step).Tidy :=
        same ▸ tidy.act engine debounce limit action
      obtain ⟨actions, allInternal, reached⟩ := inductionHypothesis stillTidy
      refine ⟨action :: actions, ?_, ?_⟩
      · intro other member
        rcases List.mem_cons.mp member with rfl | later
        · exact isInternal
        · exact allInternal other later
      · rw [List.foldl_cons, same, reached]

end Track

namespace Scheduler

theorem now_act
    (scheduler : Scheduler) (id : BufferId) (action : Action) :
    (scheduler.act id action).now = scheduler.now := by
  rw [act_eq_update]
  rfl

/-- A run of actions on one buffer. -/
theorem track_run_on
    (scheduler : Scheduler) (id other : BufferId) (actions : List Action) :
    (scheduler.run (actions.map (.on id))).now = scheduler.now ∧
      (scheduler.run (actions.map (.on id))).track other =
        if id = other then
          actions.foldl (Track.act scheduler.engine scheduler.debounce scheduler.now)
            (scheduler.track other)
        else scheduler.track other := by
  induction actions generalizing scheduler with
  | nil => simp
  | cons action actions inductionHypothesis =>
      obtain ⟨sameTime, reached⟩ := inductionHypothesis (scheduler.apply (.on id action))
      have time : (scheduler.apply (.on id action)).now = scheduler.now :=
        now_act scheduler id action
      refine ⟨by rw [List.map_cons, run_cons, sameTime, time], ?_⟩
      rw [List.map_cons, run_cons, reached, engine_apply, debounce_apply, time, apply, track_act]
      by_cases same : id = other
      · simp [same]
      · simp [same]

/-- What is due of some buffers can be done by moves. -/
theorem exists_run_eq_runTo
    (scheduler : Scheduler) (tidy : ∀ id, (scheduler.track id).Tidy) :
    ∀ ids : List BufferId,
      ∃ moves : List Move,
        (∀ move ∈ moves, move.isInternal = true) ∧
          (scheduler.run moves).now = scheduler.now ∧
            ∀ id,
              (scheduler.run moves).track id =
                if id ∈ ids then
                  (scheduler.track id).runTo scheduler.engine scheduler.now
                else scheduler.track id
  | [] => ⟨[], by simp, rfl, by simp⟩
  | first :: rest => by
      obtain ⟨moves, allInternal, time, reached⟩ := exists_run_eq_runTo scheduler tidy rest
      by_cases repeated : first ∈ rest
      · refine ⟨moves, allInternal, time, ?_⟩
        intro id
        rw [reached id]
        have sameMembers : id ∈ first :: rest ↔ id ∈ rest := by
          constructor
          · intro member
            rcases List.mem_cons.mp member with rfl | later
            · exact repeated
            · exact later
          · exact List.mem_cons_of_mem first
        simp only [sameMembers]
      · obtain ⟨actions, actionsInternal, ran⟩ :=
          Track.exists_acts_eq_runTo (tidy first)
            scheduler.engine scheduler.debounce scheduler.now
        refine ⟨moves ++ actions.map (.on first), ?_, ?_, ?_⟩
        · intro move member
          rcases List.mem_append.mp member with earlier | later
          · exact allInternal move earlier
          · obtain ⟨action, actionMember, rfl⟩ := List.mem_map.mp later
            exact actionsInternal action actionMember
        · rw [run_append, (track_run_on _ first first actions).1, time]
        · intro id
          rw [run_append, (track_run_on _ first id actions).2, engine_run, debounce_run, time,
            reached id]
          by_cases same : first = id
          · subst same
            simp [repeated, ran]
          · simp [same, Ne.symm same]

theorem track_advanceTo
    (scheduler : Scheduler) (time : Nat) (id : BufferId) :
    (scheduler.advanceTo time).track id =
      (scheduler.track id).runTo scheduler.engine time := by
  simp only [advanceTo, track, Assoc.get?_map]
  cases scheduler.tracks.get? id with
  | none =>
      rw [Option.map_none, Option.getD_none, Track.runTo]
      rfl
  | some track => rfl

/-- Moving the clock, with all that falls due on the way, is a run. -/
theorem exists_run_eq_advance
    (scheduler : Scheduler) (tidy : ∀ id, (scheduler.track id).Tidy) (milliseconds : Nat) :
    ∃ moves : List Move,
      (∀ move ∈ moves, move.isInternal = true) ∧
        (scheduler.run moves).now = (scheduler.advance milliseconds).now ∧
          ∀ id, (scheduler.run moves).track id = (scheduler.advance milliseconds).track id := by
  let later := scheduler.apply (.wait milliseconds)
  obtain ⟨moves, allInternal, time, reached⟩ :=
    later.exists_run_eq_runTo tidy scheduler.tracks.keys
  refine ⟨.wait milliseconds :: moves, ?_, time, ?_⟩
  · intro move member
    rcases List.mem_cons.mp member with rfl | inMoves
    · rfl
    · exact allInternal move inMoves
  · intro id
    rw [run_cons, reached id, advance, track_advanceTo]
    by_cases known : id ∈ scheduler.tracks.keys
    · rw [if_pos known]
      rfl
    · -- Nothing is known of the buffer, so there is nothing to do.
      have unknown : scheduler.track id = .empty id := by
        rw [track, Assoc.get?_eq_none known]
        rfl
      rw [if_neg known, track_wait, unknown, Track.runTo]
      rfl

end Scheduler

end Heredoc
