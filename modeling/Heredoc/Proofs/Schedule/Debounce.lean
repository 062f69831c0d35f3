import Heredoc.Proofs.Schedule.Timed

/-!
# The quiet time

In a timed run the orders alone say when the timer of a buffer fires: an event of the buffer sets
it, an event, the closing of the buffer or a shutdown takes it away, and nothing else does. Main
statement: a natural pass starts one quiet time after an event exactly if nothing of this kind
comes in between, and it reads the buffer as it then is (`Scheduler.debounce_exact`).
-/

namespace Heredoc

/-- When a timer falls due, and over which source it starts a pass. -/
structure Alarm where
  due : Nat
  source : Nat
deriving DecidableEq

/-- The alarm that a timer stands for. -/
def Timer.alarm (timer : Timer) : Alarm :=
  ⟨timer.due, timer.source⟩

/-- The alarm of the timer that fires. -/
def Firing.alarm (firing : Firing) : Alarm :=
  firing.timer.alarm

/-- What a natural pass reads: it goes by the version of the source, and skips one that was checked
before or else checks what the source shows. -/
def Firing.Reads (engine : Engine) (firing : Firing) (source : Source) : Prop :=
  (firing.track.cached = some source.document.version ∧
    (firing.after engine).reports =
      firing.track.reports ++
        [{ time := firing.timer.due, buffer := firing.track.id,
           version := source.document.version, forced := false, outcome := .unchanged,
           number := none }]) ∨
  (firing.track.cached ≠ some source.document.version ∧
    ∃ pass : Pass,
      (firing.after engine).passes = firing.track.passes ++ [pass] ∧
        pass.version = source.document.version ∧
          pass.forced = false ∧ pass.result = engine.diagnose source.view)

theorem Firing.reads (engine : Engine) (firing : Firing) :
    firing.Reads engine (firing.track.source firing.timer.source) := by
  unfold Firing.Reads Firing.after Track.fire
  by_cases checked :
      firing.track.cached =
        some (firing.track.source firing.timer.source).document.version
  · left
    refine ⟨checked, ?_⟩
    rw [if_pos checked]
    rfl
  · right
    rw [if_neg checked, Track.start_eq]
    exact ⟨checked, _, rfl, rfl, rfl, rfl⟩

namespace Track

/-- The alarm that is set for the buffer. -/
def alarm? (track : Track) : Option Alarm :=
  track.timer?.map Timer.alarm

theorem alarm?_of_timer? {track : Track} {timer : Timer} (armed : track.timer? = some timer) :
    track.alarm? = some timer.alarm := by
  rw [alarm?, armed, Option.map_some]

end Track

namespace Order

/-- The buffer was opened, changed, saved or activated. -/
def event (id : BufferId) (number : Nat) : Order :=
  .on id (.notify number) rfl

/-- Whether the order is an event of the buffer, its closing or a shutdown. -/
def disturbs (id : BufferId) : Order → Bool
  | .on other (.notify _) _ | .on other .close _ => other = id
  | .on .. | .advance _ => false
  | .shutdown => true

/-- Whether the order forces a pass. -/
def forces : Order → Bool
  | .on _ (.force _) _ => true
  | .on .. | .advance _ | .shutdown => false

/-- How far an order moves the clock. -/
def duration : Order → Nat
  | .advance milliseconds => milliseconds
  | .on .. | .shutdown => 0

/-- How far some orders move the clock. -/
def total : List Order → Nat
  | [] => 0
  | order :: orders => order.duration + total orders

/-- The alarm of a buffer after an order. -/
def rearm (debounce now : Nat) (id : BufferId) (alarm? : Option Alarm) : Order → Option Alarm
  | .on other (.notify number) _ =>
      if other = id then some ⟨now + debounce, number⟩ else alarm?
  | .on other .close _ => if other = id then none else alarm?
  | .on .. => alarm?
  | .advance milliseconds => alarm?.filter (now + milliseconds < ·.due)
  | .shutdown => none

/-- The alarm that goes off during an order. -/
def ring (now : Nat) (alarm? : Option Alarm) : Order → Option Alarm
  | .advance milliseconds => alarm?.filter (·.due ≤ now + milliseconds)
  | .on .. | .shutdown => none

/-- An order that does not disturb the buffer lets its alarm go off or leaves it. -/
theorem ring_append_rearm
    {id : BufferId} {order : Order} (undisturbed : order.disturbs id = false)
    (debounce now : Nat) (alarm? : Option Alarm) :
    (order.ring now alarm?).toList ++ (order.rearm debounce now id alarm?).toList =
      alarm?.toList := by
  cases order with
  | on other action asked =>
      cases action <;> simp_all [disturbs, rearm, ring]
  | advance milliseconds =>
      cases alarm? with
      | none => rfl
      | some alarm =>
          by_cases due : alarm.due ≤ now + milliseconds
          · simp [ring, rearm, Option.filter_some, due]
          · simp [ring, rearm, Option.filter_some, due, Nat.lt_of_not_le due]
  | shutdown => cases undisturbed

theorem due_le_of_ring
    {now : Nat} {alarm? : Option Alarm} {order : Order} {alarm : Alarm}
    (rings : order.ring now alarm? = some alarm) :
    alarm.due ≤ now + order.duration := by
  cases order with
  | on other action asked => cases rings
  | advance milliseconds => exact of_decide_eq_true (Option.filter_eq_some_iff.mp rings).2
  | shutdown => cases rings

/-- An alarm is set by an event or was set before. -/
theorem rearm_eq_some
    {debounce now : Nat} {id : BufferId} {alarm? : Option Alarm} {order : Order} {alarm : Alarm}
    (armed : order.rearm debounce now id alarm? = some alarm) :
    (order = event id alarm.source ∧ alarm.due = now + debounce) ∨
      (order.disturbs id = false ∧ alarm? = some alarm ∧
        (now ≤ alarm.due → now + order.duration ≤ alarm.due)) := by
  cases order with
  | on other action asked =>
      cases action with
      | notify number =>
          by_cases same : other = id
          · left
            subst same
            simp only [rearm, if_true, Option.some.injEq] at armed
            subst armed
            exact ⟨rfl, rfl⟩
          · right
            simp only [rearm, if_neg same] at armed
            exact ⟨by simp [disturbs, same], armed, fun inTime => inTime⟩
      | close =>
          by_cases same : other = id
          · simp [rearm, same] at armed
          · right
            simp only [rearm, if_neg same] at armed
            exact ⟨by simp [disturbs, same], armed, fun inTime => inTime⟩
      | add source => exact .inr ⟨rfl, armed, fun inTime => inTime⟩
      | edit number edit => exact .inr ⟨rfl, armed, fun inTime => inTime⟩
      | tear number torn => exact .inr ⟨rfl, armed, fun inTime => inTime⟩
      | force number => exact .inr ⟨rfl, armed, fun inTime => inTime⟩
      | fire => cases asked
      | finish number => cases asked
  | advance milliseconds =>
      obtain ⟨before, later⟩ := Option.filter_eq_some_iff.mp armed
      exact .inr ⟨rfl, before, fun _ => Nat.le_of_lt (of_decide_eq_true later)⟩
  | shutdown => cases armed

theorem rearm_of_forces
    {order : Order} (forced : order.forces = true)
    (debounce now : Nat) (id : BufferId) (alarm? : Option Alarm) :
    order.rearm debounce now id alarm? = alarm? ∧
      order.ring now alarm? = none ∧ order.duration = 0 := by
  cases order with
  | on other action asked => cases action <;> simp_all [forces, rearm, ring, duration]
  | advance milliseconds => cases forced
  | shutdown => cases forced

end Order

/-- An event of a buffer and what happens until the next one. -/
structure Beat where
  source : Nat
  calm : List Order

namespace Beat

/-- The orders of a beat: its event, and what follows. -/
def orders (id : BufferId) (beat : Beat) : List Order :=
  .event id beat.source :: beat.calm

/-- Whether nothing but the event disturbs the buffer. -/
def IsCalm (id : BufferId) (beat : Beat) : Prop :=
  ∀ order ∈ beat.calm, order.disturbs id = false

instance (id : BufferId) (beat : Beat) : Decidable (beat.IsCalm id) :=
  inferInstanceAs (Decidable (∀ order ∈ beat.calm, order.disturbs id = false))

/-- How far the clock is moved until the next event. -/
def duration (beat : Beat) : Nat :=
  Order.total beat.calm

theorem IsCalm.append
    {id : BufferId} {beat : Beat} {order : Order}
    (isCalm : beat.IsCalm id) (undisturbed : order.disturbs id = false) :
    Beat.IsCalm id ⟨beat.source, beat.calm ++ [order]⟩ := by
  intro other member
  rcases List.mem_append.mp member with inCalm | last
  · exact isCalm other inCalm
  · rw [List.mem_singleton.mp last]
    exact undisturbed

end Beat

/-! ## What an order does to the timer of a buffer -/

namespace Track

/-- Of all that the host does to a buffer, only events and its closing concern its timer. -/
theorem alarm?_act
    (engine : Engine) (debounce now : Nat) (track : Track) (id : BufferId)
    {action : Action} (asked : action.isInternal = false) :
    (track.act engine debounce now action).alarm? =
      (Order.on id action asked).rearm debounce now id track.alarm? := by
  cases action with
  | notify number =>
      simp only [Order.rearm, if_true]
      rfl
  | close =>
      simp only [Order.rearm, if_true]
      rfl
  | force number =>
      simp only [Order.rearm, act, force, start_eq, alarm?, timer?]
      cases track.entry <;> rfl
  | add source => rfl
  | edit number edit => rfl
  | tear number torn => rfl
  | fire => cases asked
  | finish number => cases asked

theorem alarm?_runTo (engine : Engine) (limit : Nat) (track : Track) :
    (track.runTo engine limit).alarm? = track.alarm?.filter (limit < ·.due) ∧
      (track.firings engine limit).map Firing.alarm =
        (track.alarm?.filter (·.due ≤ limit)).toList := by
  rcases firings_cases engine limit track with
    ⟨notDue, quiet, same⟩ | ⟨firing, armed, due, fired, unarmed, _⟩
  · cases armed : track.timer? with
    | none => simp [alarm?, same, quiet, armed]
    | some timer =>
        have later : limit < timer.due := notDue timer armed
        simp [alarm?, same, quiet, armed, Option.filter_some, Timer.alarm, later]
  · have notLater : ¬ limit < firing.timer.due := Nat.not_lt.mpr due
    simp [alarm?, unarmed, fired, armed, Option.filter_some, Firing.alarm, Timer.alarm, due,
      notLater]

end Track

namespace Scheduler

theorem now_obey (scheduler : Scheduler) (order : Order) :
    (scheduler.obey order).now = scheduler.now + order.duration := by
  cases order with
  | on id action asked => exact now_act scheduler id action
  | advance milliseconds => rfl
  | shutdown => rfl

theorem alarm?_obey (scheduler : Scheduler) (id : BufferId) (order : Order) :
    ((scheduler.obey order).track id).alarm? =
      order.rearm scheduler.debounce scheduler.now id (scheduler.track id).alarm? := by
  cases order with
  | on other action asked =>
      rw [obey, track_act]
      by_cases same : other = id
      · subst same
        rw [if_pos rfl]
        exact Track.alarm?_act _ _ _ _ other asked
      · rw [if_neg same]
        cases action <;> simp [Order.rearm, same]
  | advance milliseconds =>
      rw [obey, advance, track_advanceTo]
      exact (Track.alarm?_runTo ..).1
  | shutdown =>
      have forgotten : (scheduler.obey .shutdown).track id = (scheduler.track id).forget :=
        track_shutdown scheduler id
      rw [forgotten]
      rfl

theorem alarms_firingsAt (scheduler : Scheduler) (id : BufferId) (order : Order) :
    (scheduler.firingsAt id order).map Firing.alarm =
      (order.ring scheduler.now (scheduler.track id).alarm?).toList := by
  cases order with
  | on other action asked => rfl
  | advance milliseconds => exact (Track.alarm?_runTo ..).2
  | shutdown => rfl

/-! ## Timed runs -/

/-- The alarms of a buffer that go off in a timed run, in order. -/
def alarms (scheduler : Scheduler) (id : BufferId) (orders : List Order) : List Alarm :=
  (scheduler.firings id orders).map Firing.alarm

theorem alarms_cons
    (scheduler : Scheduler) (id : BufferId) (order : Order) (orders : List Order) :
    scheduler.alarms id (order :: orders) =
      (order.ring scheduler.now (scheduler.track id).alarm?).toList ++
        (scheduler.obey order).alarms id orders := by
  rw [alarms, firings_cons, List.map_append, alarms_firingsAt, alarms]

theorem now_follow (scheduler : Scheduler) (orders : List Order) :
    (scheduler.follow orders).now = scheduler.now + Order.total orders := by
  induction orders generalizing scheduler with
  | nil => rfl
  | cons order orders inductionHypothesis =>
      rw [follow_cons, inductionHypothesis, now_obey, Order.total, Nat.add_assoc]

theorem due_le_of_mem_alarms
    {scheduler : Scheduler} {id : BufferId} {orders : List Order} {alarm : Alarm}
    (member : alarm ∈ scheduler.alarms id orders) :
    alarm.due ≤ (scheduler.follow orders).now := by
  induction orders generalizing scheduler with
  | nil => cases member
  | cons order orders inductionHypothesis =>
      rw [alarms_cons] at member
      rcases List.mem_append.mp member with now | later
      · have due : alarm.due ≤ (scheduler.obey order).now := by
          rw [now_obey]
          exact Order.due_le_of_ring (Option.mem_toList.mp now)
        rw [follow_cons, now_follow]
        exact Nat.le_trans due (Nat.le_add_right _ _)
      · exact inductionHypothesis later

/-- While nothing disturbs the buffer, its alarm goes off once or is still set. -/
theorem alarms_of_undisturbed
    {scheduler : Scheduler} {id : BufferId} {orders : List Order}
    (undisturbed : ∀ order ∈ orders, order.disturbs id = false) :
    scheduler.alarms id orders ++ ((scheduler.follow orders).track id).alarm?.toList =
      (scheduler.track id).alarm?.toList := by
  induction orders generalizing scheduler with
  | nil => rfl
  | cons order orders inductionHypothesis =>
      have restUndisturbed : ∀ other ∈ orders, other.disturbs id = false :=
        fun other member => undisturbed other (List.mem_cons_of_mem order member)
      rw [alarms_cons, List.append_assoc, follow_cons, inductionHypothesis restUndisturbed,
        alarm?_obey]
      exact Order.ring_append_rearm (undisturbed order List.mem_cons_self) ..

/-- An alarm is that of the last event, and the clock has not passed it. -/
theorem exists_beat_of_alarm?
    {engine : Engine} {debounce : Nat} {id : BufferId} {orders : List Order} {alarm : Alarm}
    (armed : (((start engine debounce).follow orders).track id).alarm? = some alarm) :
    ((start engine debounce).follow orders).now ≤ alarm.due ∧
      ∃ before calm,
        orders = before ++ Beat.orders id ⟨alarm.source, calm⟩ ∧
          Beat.IsCalm id ⟨alarm.source, calm⟩ ∧
            alarm.due = ((start engine debounce).follow before).now + debounce := by
  induction orders using List.reverseRecOn with
  | nil => cases armed
  | append_singleton past order inductionHypothesis =>
      rw [follow_append, follow_cons, follow_nil] at armed ⊢
      rw [alarm?_obey, debounce_follow] at armed
      rw [now_obey]
      rcases Order.rearm_eq_some armed with ⟨rfl, due⟩ | ⟨undisturbed, before, inTime⟩
      · refine ⟨?_, past, [], rfl, by simp [Beat.IsCalm], due⟩
        rw [due]
        exact Nat.add_le_add_left (Nat.zero_le _) _
      · obtain ⟨reached, earlier, calm, rfl, isCalm, due⟩ := inductionHypothesis before
        exact ⟨inTime reached, earlier, calm ++ [order], by simp [Beat.orders],
          isCalm.append undisturbed, due⟩

theorem alarms_filter_forces
    {scheduler other : Scheduler} (id : BufferId) (orders : List Order)
    (sameTime : scheduler.now = other.now)
    (sameDebounce : scheduler.debounce = other.debounce)
    (sameAlarm : (scheduler.track id).alarm? = (other.track id).alarm?) :
    scheduler.alarms id (orders.filter (!·.forces)) = other.alarms id orders := by
  -- Both schedulers show the same time and the same alarm, before and after each order that is
  -- kept; the passes and the cache may differ.
  induction orders generalizing scheduler other with
  | nil => rfl
  | cons order orders inductionHypothesis =>
      rw [alarms_cons other]
      cases forced : order.forces with
      | true =>
          obtain ⟨kept, silent, instant⟩ :=
            Order.rearm_of_forces forced other.debounce other.now id (other.track id).alarm?
          rw [List.filter_cons_of_neg (by simp [forced]), silent]
          refine inductionHypothesis ?_ ?_ ?_
          · rw [now_obey, instant, sameTime, Nat.add_zero]
          · rw [debounce_obey, sameDebounce]
          · rw [alarm?_obey, kept, sameAlarm]
      | false =>
          rw [List.filter_cons_of_pos (by simp [forced]), alarms_cons, sameTime, sameAlarm]
          congr 1
          refine inductionHypothesis ?_ ?_ ?_
          · rw [now_obey, now_obey, sameTime]
          · rw [debounce_obey, debounce_obey, sameDebounce]
          · rw [alarm?_obey, alarm?_obey, sameTime, sameDebounce, sameAlarm]

/-! ## An event and the quiet after it -/

theorem alarm?_event (scheduler : Scheduler) (id : BufferId) (number : Nat) :
    ((scheduler.obey (.event id number)).track id).alarm? =
      some ⟨scheduler.now + scheduler.debounce, number⟩ := by
  rw [alarm?_obey]
  simp [Order.event, Order.rearm]

/-- The alarm of an event goes off once or is still set, until something else disturbs the
buffer. -/
theorem alarms_beat_cases
    {id : BufferId} {beat : Beat} (scheduler : Scheduler) (isCalm : beat.IsCalm id) :
    (scheduler.alarms id (beat.orders id) =
        [⟨scheduler.now + scheduler.debounce, beat.source⟩] ∧
      ((scheduler.follow (beat.orders id)).track id).alarm? = none) ∨
    (scheduler.alarms id (beat.orders id) = [] ∧
      ((scheduler.follow (beat.orders id)).track id).alarm? =
        some ⟨scheduler.now + scheduler.debounce, beat.source⟩) := by
  have onceOrSet :=
    @alarms_of_undisturbed (scheduler.obey (.event id beat.source)) id beat.calm isCalm
  have sameAlarms :
      scheduler.alarms id (beat.orders id) =
        (scheduler.obey (.event id beat.source)).alarms id beat.calm := alarms_cons ..
  rw [alarm?_event, Option.toList_some, ← sameAlarms, ← follow_cons] at onceOrSet
  rcases List.append_eq_singleton_iff.mp onceOrSet with ⟨silent, set⟩ | ⟨once, unset⟩
  · exact .inr ⟨silent, Option.toList_eq_singleton_iff.mp set⟩
  · exact .inl ⟨once, Option.toList_eq_nil_iff.mp unset⟩

theorem now_follow_beat (scheduler : Scheduler) (id : BufferId) (beat : Beat) :
    (scheduler.follow (beat.orders id)).now = scheduler.now + beat.duration := by
  rw [Beat.orders, follow_cons, now_follow, now_obey]
  rfl

/-- If the quiet after an event is too short, nothing fires. -/
theorem firings_beat_of_lt
    {scheduler : Scheduler} {id : BufferId} {beat : Beat}
    (isCalm : beat.IsCalm id) (tooShort : beat.duration < scheduler.debounce) :
    scheduler.firings id (beat.orders id) = [] := by
  rcases alarms_beat_cases scheduler isCalm with ⟨once, _⟩ | ⟨silent, _⟩
  · have due :
        scheduler.now + scheduler.debounce ≤ (scheduler.follow (beat.orders id)).now :=
      due_le_of_mem_alarms (once ▸ List.mem_singleton_self _)
    rw [now_follow_beat] at due
    omega
  · exact List.map_eq_nil_iff.mp silent

/-- If the quiet after an event is long enough, the timer of the event fires, once. -/
theorem firings_beat_of_le
    {scheduler : Scheduler} {id : BufferId} {beat : Beat} {milliseconds : Nat}
    (isCalm : beat.IsCalm id) (longEnough : scheduler.debounce ≤ beat.duration + milliseconds) :
    ∃ firing : Firing,
      scheduler.firings id (beat.orders id ++ [.advance milliseconds]) = [firing] ∧
        firing.timer.source = beat.source ∧
          firing.timer.due = scheduler.now + scheduler.debounce := by
  have stillCalm : Beat.IsCalm id ⟨beat.source, beat.calm ++ [.advance milliseconds]⟩ :=
    isCalm.append rfl
  rcases alarms_beat_cases scheduler stillCalm with ⟨once, _⟩ | ⟨_, set⟩
  · obtain ⟨firing, fired, alarm⟩ := List.map_eq_singleton_iff.mp once
    exact ⟨firing, fired, congrArg Alarm.source alarm, congrArg Alarm.due alarm⟩
  · -- The clock has just been moved, so that an alarm which is still set is not due.
    change ((scheduler.follow (beat.orders id ++ [.advance milliseconds])).track id).alarm? = _
      at set
    rw [follow_append, follow_cons, follow_nil, alarm?_obey] at set
    have notDue :
        (scheduler.follow (beat.orders id)).now + milliseconds <
          scheduler.now + scheduler.debounce :=
      of_decide_eq_true (Option.filter_eq_some_iff.mp set).2
    rw [now_follow_beat] at notDue
    omega

/-- A burst of events starts no pass while it lasts. -/
theorem firings_burst
    {scheduler : Scheduler} {id : BufferId} {burst : List Beat}
    (dense : ∀ beat ∈ burst, beat.IsCalm id ∧ beat.duration < scheduler.debounce) :
    scheduler.firings id (burst.flatMap (Beat.orders id)) = [] := by
  induction burst generalizing scheduler with
  | nil => rfl
  | cons beat burst inductionHypothesis =>
      obtain ⟨isCalm, tooShort⟩ := dense beat List.mem_cons_self
      rw [List.flatMap_cons, firings_append, firings_beat_of_lt isCalm tooShort, List.nil_append]
      refine inductionHypothesis ?_
      intro other member
      rw [debounce_follow]
      exact dense other (List.mem_cons_of_mem beat member)

/-- A burst of events with enough quiet after the last one starts one pass. -/
theorem exists_firings_burst
    {scheduler : Scheduler} {id : BufferId} {burst : List Beat} {last : Beat} {milliseconds : Nat}
    (dense : ∀ beat ∈ burst, beat.IsCalm id ∧ beat.duration < scheduler.debounce)
    (isCalm : last.IsCalm id) (longEnough : scheduler.debounce ≤ last.duration + milliseconds) :
    ∃ firing : Firing,
      scheduler.firings id
          (burst.flatMap (Beat.orders id) ++ (last.orders id ++ [.advance milliseconds])) =
        [firing] ∧
      firing.timer.source = last.source ∧
        firing.timer.due =
          (scheduler.follow (burst.flatMap (Beat.orders id))).now + scheduler.debounce := by
  have inBurst :
      (scheduler.follow (burst.flatMap (Beat.orders id))).debounce = scheduler.debounce :=
    debounce_follow ..
  rw [← inBurst] at longEnough
  obtain ⟨firing, fired, source, due⟩ := firings_beat_of_le isCalm longEnough
  rw [inBurst] at due
  refine ⟨firing, ?_, source, due⟩
  rw [firings_append, firings_burst dense, List.nil_append, fired]

/-! ## When natural passes start and what they read -/

/-- A timer that fires was armed when the clock began to move, falls due on the way, and finds the
sources as they were. -/
theorem reads_of_mem_firingsAt
    {scheduler : Scheduler} {id : BufferId} {milliseconds : Nat} {firing : Firing}
    (member : firing ∈ scheduler.firingsAt id (.advance milliseconds)) :
    (scheduler.track id).timer? = some firing.timer ∧
      firing.timer.due ≤ scheduler.now + milliseconds ∧
        ((scheduler.advance milliseconds).track id =
            (firing.after scheduler.engine).runTo scheduler.engine
              (scheduler.now + milliseconds)) ∧
          firing.Reads scheduler.engine ((scheduler.track id).source firing.timer.source) := by
  rcases Track.firings_cases scheduler.engine (scheduler.now + milliseconds) (scheduler.track id)
    with ⟨_, quiet, _⟩ | ⟨only, armed, due, fired, _, sameSources, reached⟩
  · rw [firingsAt, quiet] at member
    cases member
  · rw [firingsAt, fired] at member
    obtain rfl : firing = only := List.mem_singleton.mp member
    refine ⟨armed, due, ?_, ?_⟩
    · rw [advance, track_advanceTo, reached]
    · rw [← sameSources]
      exact firing.reads scheduler.engine

/-- A timer that fires was armed by the last event, one quiet time before. -/
theorem exists_beat_of_mem_firings
    {engine : Engine} {debounce : Nat} {id : BufferId} {orders : List Order} {firing : Firing}
    (member : firing ∈ (start engine debounce).firings id orders) :
    ∃ (before : List Order) (beat : Beat) (milliseconds : Nat) (rest : List Order),
      orders = before ++ beat.orders id ++ [.advance milliseconds] ++ rest ∧
        beat.IsCalm id ∧
          debounce ≤ beat.duration + milliseconds ∧
            firing.timer.due = ((start engine debounce).follow before).now + debounce := by
  obtain ⟨past, milliseconds, rest, rfl, fired⟩ := exists_of_mem_firings member
  obtain ⟨armed, due, _⟩ := reads_of_mem_firingsAt fired
  obtain ⟨_, before, calm, rfl, isCalm, arming⟩ :=
    exists_beat_of_alarm? (Track.alarm?_of_timer? armed)
  refine ⟨before, _, milliseconds, rest, List.append_cons .., isCalm, ?_, arming⟩
  rw [follow_append, now_follow_beat] at due
  change firing.timer.due = _ at arming
  rw [arming, Nat.add_assoc] at due
  exact Nat.le_of_add_le_add_left due

/-- A natural pass of a buffer starts exactly one quiet time after an event of the buffer that no
later event, no closing of the buffer and no shutdown follows before the timer falls due. -/
theorem debounce_exact
    (engine : Engine) (debounce : Nat) (id : BufferId) (orders : List Order) :
    let start := Scheduler.start engine debounce
    (∀ time,
      (∃ firing ∈ start.firings id orders, firing.timer.due = time) ↔
        ∃ (before : List Order) (beat : Beat) (milliseconds : Nat) (rest : List Order),
          orders = before ++ beat.orders id ++ [.advance milliseconds] ++ rest ∧
            beat.IsCalm id ∧
              debounce ≤ beat.duration + milliseconds ∧
                time = (start.follow before).now + debounce) ∧
    -- At any time a buffer has one timer at most: that of the last event.
    (∀ timer,
      ((start.follow orders).track id).timer? = some timer →
        ∃ (before : List Order) (beat : Beat),
          orders = before ++ beat.orders id ∧
            beat.IsCalm id ∧
              timer.source = beat.source ∧ timer.due = (start.follow before).now + debounce) ∧
    -- A burst of events starts one natural pass, after the last one.
    (∀ (before : List Order) (burst : List Beat) (last : Beat) (milliseconds : Nat),
      orders =
          before ++ burst.flatMap (Beat.orders id) ++ last.orders id ++ [.advance milliseconds] →
        (∀ beat ∈ burst, beat.IsCalm id ∧ beat.duration < debounce) →
          last.IsCalm id → debounce ≤ last.duration + milliseconds →
            ∃ firing,
              start.firings id orders = start.firings id before ++ [firing] ∧
                firing.timer.source = last.source ∧
                  firing.timer.due =
                    (start.follow (before ++ burst.flatMap (Beat.orders id))).now + debounce) ∧
    -- Without the forced passes, the natural ones start at the same times over the same sources.
    (start.firings id (orders.filter (!·.forces))).map Firing.alarm =
      (start.firings id orders).map Firing.alarm ∧
    -- A natural pass reads what the buffer is when its timer falls due.
    ∀ firing ∈ start.firings id orders,
      ∃ past milliseconds rest,
        orders = past ++ .advance milliseconds :: rest ∧
          (start.follow past).now ≤ firing.timer.due ∧
            firing.timer.due ≤ (start.follow past).now + milliseconds ∧
              (start.follow (past ++ [.advance milliseconds])).track id =
                (firing.after engine).runTo engine ((start.follow past).now + milliseconds) ∧
                firing.Reads engine
                  (((start.follow past).track id).source firing.timer.source) := by
  intro start
  have sameDebounce : ∀ past, (start.follow past).debounce = debounce := debounce_follow start
  refine ⟨?_, ?_, ?_, ?_, ?_⟩
  · intro time
    constructor
    · rintro ⟨firing, member, rfl⟩
      exact exists_beat_of_mem_firings member
    · rintro ⟨before, beat, milliseconds, rest, rfl, isCalm, longEnough, rfl⟩
      rw [← sameDebounce before] at longEnough
      obtain ⟨firing, fired, _, due⟩ := firings_beat_of_le isCalm longEnough
      rw [sameDebounce] at due
      refine ⟨firing, ?_, due⟩
      rw [List.append_assoc before, firings_append, firings_append, fired]
      simp
  · intro timer armed
    obtain ⟨_, before, calm, split, isCalm, due⟩ :=
      exists_beat_of_alarm? (Track.alarm?_of_timer? armed)
    exact ⟨before, _, split, isCalm, rfl, due⟩
  · rintro before burst last milliseconds rfl dense isCalm longEnough
    rw [← sameDebounce before] at dense longEnough
    obtain ⟨firing, fired, source, due⟩ := exists_firings_burst dense isCalm longEnough
    rw [sameDebounce, ← follow_append] at due
    refine ⟨firing, ?_, source, due⟩
    rw [List.append_assoc (before ++ _), List.append_assoc before, firings_append, fired]
  · exact alarms_filter_forces id orders rfl rfl rfl
  · intro firing member
    obtain ⟨past, milliseconds, rest, rfl, fired⟩ := exists_of_mem_firings member
    obtain ⟨armed, due, reached, reads⟩ := reads_of_mem_firingsAt fired
    obtain ⟨inTime, _⟩ := exists_beat_of_alarm? (Track.alarm?_of_timer? armed)
    rw [engine_follow] at reached reads
    refine ⟨past, milliseconds, rest, rfl, inTime, due, ?_, reads⟩
    rw [follow_append]
    exact reached

/-- An event with a forced pass after it, and an event with an edit after it. -/
theorem debounce_exact_two_events :
    ∃ firing : Firing,
      (Scheduler.start ⟨.empty, .empty, {}⟩ 250).firings "a.sh"
          [.on "a.sh" (.add ⟨⟨"a.sh", 3, ["echo"]⟩, false⟩) rfl,
            .event "a.sh" 0, .advance 200, .on "a.sh" (.force 0) rfl,
            .event "a.sh" 0, .on "a.sh" (.edit 0 (.setText "echo 1")) rfl, .advance 300] =
        [firing] ∧
      firing.timer.source = 0 ∧ firing.timer.due = 450 :=
  (debounce_exact ⟨.empty, .empty, {}⟩ 250 "a.sh" _).2.2.1
    [.on "a.sh" (.add ⟨⟨"a.sh", 3, ["echo"]⟩, false⟩) rfl]
    [⟨0, [.advance 200, .on "a.sh" (.force 0) rfl]⟩]
    ⟨0, [.on "a.sh" (.edit 0 (.setText "echo 1")) rfl]⟩ 300
    rfl (by decide) (by decide) (by decide)

end Scheduler

end Heredoc
