import Heredoc.Proofs.Schedule.Clock

/-!
# Timed runs

In a timed run the clock decides when timers fire and when passes end. The run is a list of orders:
what the host does, at the time that the clock shows, and by how much the clock is moved; a forced
pass that is waited for is a forced pass and a move of the clock
(`Scheduler.exists_follow_eq_forceAndWait`). Main statement: the timer of a buffer fires while the
clock is moved exactly if it falls due on the way, once, and it finds the sources as they were when
the clock began to move (`Track.firings_cases`).
-/

namespace Heredoc

/-- What happens in a timed run: the host acts on a buffer, the clock is moved, or the scheduler is
shut down. -/
inductive Order where
  | on (id : BufferId) (action : Action) (asked : action.isInternal = false)
  | advance (milliseconds : Nat)
  | shutdown
deriving DecidableEq

/-- A timer that fires, and the track and the entry that it fires on. -/
structure Firing where
  track : Track
  entry : Entry
  timer : Timer

/-- The track when the timer has fired. -/
def Firing.after (engine : Engine) (firing : Firing) : Track :=
  firing.track.fire engine firing.entry firing.timer

namespace Track

/-- The timer that is set for the buffer. -/
def timer? (track : Track) : Option Timer :=
  track.entry.bind Entry.timer

theorem timer?_of_armed?
    {track : Track} {entry : Entry} {timer : Timer}
    (armed : track.armed? = some (entry, timer)) :
    track.timer? = some timer := by
  obtain ⟨tracked, holds⟩ := armed?_eq_some.mp armed
  rw [timer?, tracked, Option.bind_some, holds]

theorem exists_armed?_of_timer?
    {track : Track} {timer : Timer}
    (armed : track.timer? = some timer) :
    ∃ entry, track.armed? = some (entry, timer) := by
  obtain ⟨entry, tracked, holds⟩ := Option.bind_eq_some_iff.mp armed
  exact ⟨entry, armed?_eq_some.mpr ⟨tracked, holds⟩⟩

theorem timer?_fire
    (engine : Engine) (entry : Entry) (timer : Timer) (track : Track) :
    (track.fire engine entry timer).timer? = none := by
  rcases fire_cases engine entry timer track with ⟨_, report, _, skipped⟩ | ⟨_, started⟩
  · rw [skipped]
    rfl
  · rw [started, start_eq]
    rfl

/-! ## The steps of a moving clock -/

/-- A firing, if the step is one. -/
def Step.firing? (track : Track) : Step → Option Firing
  | .fire entry timer => some ⟨track, entry, timer⟩
  | .complete _ => none

/-- The timers that fire up to a time, in order. -/
def firings (engine : Engine) (limit : Nat) (track : Track) : List Firing :=
  match _h : track.next? limit with
  | none => []
  | some step =>
      (step.firing? track).toList ++ (track.perform engine step).firings engine limit
termination_by track.work
decreasing_by exact work_perform_lt engine _h

variable {engine : Engine} {limit : Nat} {track : Track}

theorem lt_due_of_next?_eq_none
    {entry : Entry} {timer : Timer}
    (atRest : track.next? limit = none) (armed : track.armed? = some (entry, timer)) :
    limit < timer.due := by
  simp only [next?, armed] at atRest
  cases first : earliest track.passes with
  | none =>
      rw [first] at atRest
      by_contra due
      simp [Nat.le_of_not_lt due] at atRest
  | some pass =>
      rw [first] at atRest
      by_cases before : pass.due ≤ timer.due
      · by_contra due
        have alsoDue : pass.due ≤ limit := Nat.le_trans before (Nat.le_of_not_lt due)
        simp [before, alsoDue] at atRest
      · by_contra due
        simp [before, Nat.le_of_not_lt due] at atRest

theorem firings_of_atRest (atRest : track.next? limit = none) :
    track.firings engine limit = [] ∧ track.runTo engine limit = track := by
  constructor
  · rw [firings]
    split <;> simp_all
  · rw [runTo]
    split <;> simp_all

theorem firings_of_step
    {step : Step} (engine : Engine) (chosen : track.next? limit = some step) :
    track.firings engine limit =
        (step.firing? track).toList ++ (track.perform engine step).firings engine limit ∧
      track.runTo engine limit = (track.perform engine step).runTo engine limit := by
  constructor
  · rw [firings]
    split <;> simp_all
  · rw [runTo]
    split <;> simp_all

/-- All that moving the clock does to the timer of a track: it leaves a timer that is not due, and
fires one that is. Passes that end on the way change neither the timer nor the sources. -/
theorem firings_cases (engine : Engine) (limit : Nat) (track : Track) :
    ((∀ timer, track.timer? = some timer → limit < timer.due) ∧
      track.firings engine limit = [] ∧
        (track.runTo engine limit).timer? = track.timer?) ∨
    ∃ firing : Firing,
      track.timer? = some firing.timer ∧ firing.timer.due ≤ limit ∧
        track.firings engine limit = [firing] ∧
          (track.runTo engine limit).timer? = none ∧
            firing.track.source = track.source ∧
              track.runTo engine limit = (firing.after engine).runTo engine limit := by
  fun_induction runTo engine limit track with
  | case1 track atRest =>
      left
      refine ⟨?_, (firings_of_atRest atRest).1, rfl⟩
      intro timer armed
      obtain ⟨entry, holds⟩ := exists_armed?_of_timer? armed
      exact lt_due_of_next?_eq_none atRest holds
  | case2 track step chosen inductionHypothesis =>
      have fires := (firings_of_step engine chosen).1
      rcases next?_cases chosen with ⟨entry, timer, rfl, armed, due⟩ | ⟨pass, rfl, member⟩
      · right
        have unarmed : (track.fire engine entry timer).timer? = none := timer?_fire ..
        -- After the timer has fired there is none left to fire.
        have quiet :
            (track.fire engine entry timer).firings engine limit = [] ∧
              ((track.fire engine entry timer).runTo engine limit).timer? = none := by
          rcases inductionHypothesis with ⟨_, none, same⟩ | ⟨firing, again, _⟩
          · exact ⟨none, same.trans unarmed⟩
          · rw [perform, unarmed] at again
            cases again
        refine ⟨⟨track, entry, timer⟩, timer?_of_armed? armed, due, ?_, quiet.2, rfl, rfl⟩
        rw [fires, perform, quiet.1]
        rfl
      · have sameTimer : (track.complete pass).timer? = track.timer? := timer_complete track pass
        have sameSources : (track.complete pass).source = track.source := source_complete track pass
        rw [perform, sameTimer, sameSources] at inductionHypothesis
        rw [fires]
        exact inductionHypothesis

end Track

namespace Scheduler

/-- Carries out an order. -/
def obey (scheduler : Scheduler) : Order → Scheduler
  | .on id action _ => scheduler.act id action
  | .advance milliseconds => scheduler.advance milliseconds
  | .shutdown => scheduler.shutdown

/-- Carries out orders, one after another. -/
def follow (scheduler : Scheduler) (orders : List Order) : Scheduler :=
  orders.foldl obey scheduler

/-- The timers of the buffer that fire while an order is carried out. -/
def firingsAt (scheduler : Scheduler) (id : BufferId) : Order → List Firing
  | .advance milliseconds =>
      (scheduler.track id).firings scheduler.engine (scheduler.now + milliseconds)
  | .on .. | .shutdown => []

/-- The timers of the buffer that fire in a timed run, in order: each one starts a natural pass. -/
def firings (scheduler : Scheduler) (id : BufferId) : List Order → List Firing
  | [] => []
  | order :: orders => scheduler.firingsAt id order ++ (scheduler.obey order).firings id orders

@[simp]
theorem follow_nil (scheduler : Scheduler) :
    scheduler.follow [] = scheduler := rfl

@[simp]
theorem follow_cons (scheduler : Scheduler) (order : Order) (orders : List Order) :
    scheduler.follow (order :: orders) = (scheduler.obey order).follow orders := rfl

theorem follow_append (scheduler : Scheduler) (orders later : List Order) :
    scheduler.follow (orders ++ later) = (scheduler.follow orders).follow later :=
  List.foldl_append

theorem firings_cons
    (scheduler : Scheduler) (id : BufferId) (order : Order) (orders : List Order) :
    scheduler.firings id (order :: orders) =
      scheduler.firingsAt id order ++ (scheduler.obey order).firings id orders := rfl

theorem firings_append
    (scheduler : Scheduler) (id : BufferId) (orders later : List Order) :
    scheduler.firings id (orders ++ later) =
      scheduler.firings id orders ++ (scheduler.follow orders).firings id later := by
  induction orders generalizing scheduler with
  | nil => rfl
  | cons order orders inductionHypothesis =>
      rw [List.cons_append, firings_cons, firings_cons, inductionHypothesis, List.append_assoc,
        follow_cons]

@[simp]
theorem engine_obey (scheduler : Scheduler) (order : Order) :
    (scheduler.obey order).engine = scheduler.engine := by
  cases order with
  | on id action asked => exact engine_apply scheduler (.on id action)
  | advance milliseconds => rfl
  | shutdown => rfl

@[simp]
theorem debounce_obey (scheduler : Scheduler) (order : Order) :
    (scheduler.obey order).debounce = scheduler.debounce := by
  cases order with
  | on id action asked => exact debounce_apply scheduler (.on id action)
  | advance milliseconds => rfl
  | shutdown => rfl

@[simp]
theorem engine_follow (scheduler : Scheduler) (orders : List Order) :
    (scheduler.follow orders).engine = scheduler.engine := by
  induction orders generalizing scheduler with
  | nil => rfl
  | cons order orders inductionHypothesis =>
      rw [follow_cons, inductionHypothesis, engine_obey]

@[simp]
theorem debounce_follow (scheduler : Scheduler) (orders : List Order) :
    (scheduler.follow orders).debounce = scheduler.debounce := by
  induction orders generalizing scheduler with
  | nil => rfl
  | cons order orders inductionHypothesis =>
      rw [follow_cons, inductionHypothesis, debounce_obey]

/-- To wait for a forced pass is to move the clock until the pass is done. -/
theorem exists_follow_eq_forceAndWait
    (scheduler : Scheduler) (id : BufferId) (number : Nat) :
    ∃ milliseconds,
      (scheduler.forceAndWait id number).2 =
        scheduler.follow [.on id (.force number) rfl, .advance milliseconds] := by
  have inFlight :
      (((scheduler.force id number).track id).passes.find?
        (·.number = (scheduler.track id).started)).isSome := by
    rw [force, track_update, if_pos rfl, Track.force, Track.start_eq, List.find?_isSome]
    exact ⟨_, List.mem_append_right _ (List.mem_singleton_self _), decide_eq_true rfl⟩
  obtain ⟨pass, found⟩ := Option.isSome_iff_exists.mp inFlight
  have time :
      scheduler.now + (max pass.due scheduler.now - scheduler.now) =
        max pass.due scheduler.now :=
    Nat.add_sub_cancel' (Nat.le_max_right _ _)
  refine ⟨max pass.due scheduler.now - scheduler.now, ?_⟩
  simp only [forceAndWait, found]
  change _ = (scheduler.force id number).advanceTo _
  exact congrArg _ time.symm

/-- Timers fire only while the clock is moved. -/
theorem exists_of_mem_firings
    {scheduler : Scheduler} {id : BufferId} {firing : Firing} {orders : List Order}
    (member : firing ∈ scheduler.firings id orders) :
    ∃ past milliseconds rest,
      orders = past ++ .advance milliseconds :: rest ∧
        firing ∈ (scheduler.follow past).firingsAt id (.advance milliseconds) := by
  induction orders generalizing scheduler with
  | nil => cases member
  | cons order orders inductionHypothesis =>
      rcases List.mem_append.mp member with now | later
      · cases order with
        | on other action asked => cases now
        | advance milliseconds => exact ⟨[], milliseconds, orders, rfl, now⟩
        | shutdown => cases now
      · obtain ⟨past, milliseconds, rest, rfl, fired⟩ := inductionHypothesis later
        exact ⟨order :: past, milliseconds, rest, rfl, fired⟩

end Scheduler

end Heredoc
