import Heredoc.Proofs.Schedule.Debounce

/-!
# Buffers do not interfere

All buffers share one table, one clock and one engine, and still the timeline of a buffer is that of
the run in which nothing is done to any other buffer. The two runs stop the clock at different
times, so that the argument is a simulation of two schedulers that agree on one buffer
(`Scheduler.Agrees`); it rests on the clock being free to stop on its way (`Track.runTo_runTo`).
-/

namespace Heredoc

namespace Track

theorem next?_of_le
    {track : Track} {early late : Nat} {step : Step}
    (chosen : track.next? early = some step) (inOrder : early ≤ late) :
    track.next? late = some step := by
  simp only [next?] at chosen ⊢
  split at chosen
  · rename_i due known first
    by_cases inTime : due ≤ early
    · rw [if_pos inTime] at chosen
      rw [if_pos (Nat.le_trans inTime inOrder)]
      exact chosen
    · rw [if_neg inTime] at chosen
      cases chosen
  · cases chosen

/-- The clock may stop on its way. -/
theorem runTo_runTo
    {early late : Nat} (inOrder : early ≤ late) (engine : Engine) (track : Track) :
    (track.runTo engine early).runTo engine late = track.runTo engine late := by
  fun_induction runTo engine early track with
  | case1 track atRest => rfl
  | case2 track step chosen inductionHypothesis =>
      have alsoLater : track.next? late = some step := next?_of_le chosen inOrder
      rw [inductionHypothesis, (firings_of_step engine alsoLater).2]

end Track

namespace Order

/-- Whether an order concerns a buffer: all but what is done to another buffer does. -/
def concerns (id : BufferId) : Order → Bool
  | .on other _ _ => other = id
  | .advance _ | .shutdown => true

/-- Puts an order before others; two moves of the clock in a row become one. -/
def before : Order → List Order → List Order
  | .advance first, .advance second :: orders => .advance (first + second) :: orders
  | order, orders => order :: orders

/-- A timed run without what is done to other buffers than this one. -/
def alone (id : BufferId) : List Order → List Order
  | [] => []
  | order :: orders =>
      if order.concerns id then order.before (alone id orders) else alone id orders

/-- What is done in a timed run, and when. -/
def stamps (now : Nat) : List Order → List (Nat × Order)
  | [] => []
  | .advance milliseconds :: orders => stamps (now + milliseconds) orders
  | order :: orders => (now, order) :: stamps now orders

theorem before_cases (order : Order) (orders : List Order) :
    order.before orders = order :: orders ∨
      ∃ first second rest,
        order = .advance first ∧ orders = .advance second :: rest ∧
          order.before orders = .advance (first + second) :: rest := by
  unfold before
  split
  · exact .inr ⟨_, _, _, rfl, rfl, rfl⟩
  · exact .inl rfl

theorem eq_on_of_not_concerns
    {id : BufferId} {order : Order} (foreign : order.concerns id = false) :
    ∃ other action asked, order = .on other action asked ∧ other ≠ id := by
  cases order with
  | on other action asked => exact ⟨other, action, asked, rfl, of_decide_eq_false foreign⟩
  | advance milliseconds => cases foreign
  | shutdown => cases foreign

theorem duration_of_not_concerns
    {id : BufferId} {order : Order} (foreign : order.concerns id = false) :
    order.duration = 0 := by
  obtain ⟨other, action, asked, rfl, _⟩ := eq_on_of_not_concerns foreign
  rfl

theorem total_alone (id : BufferId) (orders : List Order) :
    total (alone id orders) = total orders := by
  induction orders with
  | nil => rfl
  | cons order orders inductionHypothesis =>
      cases own : order.concerns id with
      | false =>
          rw [alone, own, total, duration_of_not_concerns own, Nat.zero_add]
          exact inductionHypothesis
      | true =>
          rw [alone, own, if_pos rfl, total, ← inductionHypothesis]
          rcases before_cases order (alone id orders) with same | ⟨first, second, rest, rfl, after, merged⟩
          · rw [same, total]
          · rw [merged, after]
            exact Nat.add_assoc first second _

theorem stamps_before (now : Nat) (order : Order) (orders : List Order) :
    stamps now (order.before orders) = stamps now (order :: orders) := by
  rcases before_cases order orders with same | ⟨first, second, rest, rfl, rfl, merged⟩
  · rw [same]
  · rw [merged, stamps, stamps, stamps, Nat.add_assoc]

/-- What is left of a timed run is what was done to the buffer, at the same times. -/
theorem stamps_alone (id : BufferId) (now : Nat) (orders : List Order) :
    stamps now (alone id orders) =
      (stamps now orders).filter (·.2.concerns id) := by
  induction orders generalizing now with
  | nil => rfl
  | cons order orders inductionHypothesis =>
      cases own : order.concerns id with
      | false =>
          obtain ⟨other, action, asked, rfl, _⟩ := eq_on_of_not_concerns own
          rw [alone, own, stamps, List.filter_cons_of_neg (by simp [own])]
          · exact inductionHypothesis now
          · simp
      | true =>
          rw [alone, own, if_pos rfl, stamps_before]
          cases order with
          | advance milliseconds => exact inductionHypothesis (now + milliseconds)
          | on other action asked => simp [stamps, own, inductionHypothesis]
          | shutdown => simp [stamps, own, inductionHypothesis]

end Order

/-- What is seen of a buffer: what it is doing, if it is tracked, what is cached and shown for it,
and its passes that ended, in order. -/
structure Glimpse where
  phase? : Option Phase
  cached : Option Nat
  shown : Option (List Diagnostic)
  reports : List Report
deriving DecidableEq

namespace Scheduler

/-- What is seen of a buffer now. -/
def glimpse (scheduler : Scheduler) (id : BufferId) : Glimpse where
  phase? := scheduler.phase? id
  cached := (scheduler.track id).cached
  shown := (scheduler.track id).shown
  reports := (scheduler.track id).reports

/-- The scheduler at a time of a timed run: the orders given by then are carried out, and the clock
stops there if it is on its way to a later time. -/
def asOf (time : Nat) (scheduler : Scheduler) : List Order → Scheduler
  | [] => scheduler
  | order :: orders =>
      if scheduler.now + order.duration ≤ time then (scheduler.obey order).asOf time orders
      else scheduler.advanceTo time

/-- What is seen of a buffer at each time of a timed run. -/
def timeline (scheduler : Scheduler) (id : BufferId) (orders : List Order) (time : Nat) : Glimpse :=
  (scheduler.asOf time orders).glimpse id

/-! ## Schedulers that agree on a buffer -/

/-- Two schedulers that can tell a buffer apart by nothing: the track is the same, and so are the
clock and all that decides what becomes of it. -/
structure Agrees (id : BufferId) (scheduler other : Scheduler) : Prop where
  engine : scheduler.engine = other.engine
  debounce : scheduler.debounce = other.debounce
  now : scheduler.now = other.now
  track : scheduler.track id = other.track id

namespace Agrees

variable {id : BufferId} {scheduler other third : Scheduler}

theorem refl (id : BufferId) (scheduler : Scheduler) : scheduler.Agrees id scheduler :=
  ⟨rfl, rfl, rfl, rfl⟩

theorem trans (first : scheduler.Agrees id other) (second : other.Agrees id third) :
    scheduler.Agrees id third :=
  ⟨first.engine.trans second.engine, first.debounce.trans second.debounce,
    first.now.trans second.now, first.track.trans second.track⟩

theorem glimpse (agrees : scheduler.Agrees id other) :
    scheduler.glimpse id = other.glimpse id := by
  simp only [Scheduler.glimpse, phase?, agrees.track]

theorem advanceTo (agrees : scheduler.Agrees id other) (time : Nat) :
    (scheduler.advanceTo time).Agrees id (other.advanceTo time) := by
  refine ⟨agrees.engine, agrees.debounce, rfl, ?_⟩
  rw [track_advanceTo, track_advanceTo, agrees.engine, agrees.track]

/-- The same order keeps two schedulers in agreement. -/
theorem obey (agrees : scheduler.Agrees id other) (order : Order) :
    (scheduler.obey order).Agrees id (other.obey order) := by
  refine ⟨?_, ?_, ?_, ?_⟩
  · rw [engine_obey, engine_obey, agrees.engine]
  · rw [debounce_obey, debounce_obey, agrees.debounce]
  · rw [now_obey, now_obey, agrees.now]
  · cases order with
    | on buffer action asked =>
        simp only [Scheduler.obey, track_act, agrees.engine, agrees.debounce, agrees.now,
          agrees.track]
    | advance milliseconds =>
        have moved := (agrees.advanceTo (scheduler.now + milliseconds)).track
        rw [Scheduler.obey, Scheduler.obey, advance, advance, ← agrees.now]
        exact moved
    | shutdown =>
        have forgotten := track_shutdown scheduler id
        rw [agrees.track, ← track_shutdown other id] at forgotten
        exact forgotten

/-- An order about another buffer keeps the agreement, though only one scheduler carries it out. -/
theorem obey_foreign
    {order : Order} (agrees : scheduler.Agrees id other) (foreign : order.concerns id = false) :
    scheduler.Agrees id (other.obey order) := by
  obtain ⟨buffer, action, asked, rfl, different⟩ := Order.eq_on_of_not_concerns foreign
  have untouched : (other.obey (.on buffer action asked)).track id = other.track id := by
    rw [Scheduler.obey, track_act, if_neg different]
  refine ⟨?_, ?_, ?_, agrees.track.trans untouched.symm⟩
  · rw [engine_obey, agrees.engine]
  · rw [debounce_obey, agrees.debounce]
  · rw [now_obey, agrees.now]
    rfl

/-- A clock that stops on its way makes no difference to a buffer. -/
theorem advanceTo_advanceTo
    {early late : Nat} (inOrder : early ≤ late) (id : BufferId) (scheduler : Scheduler) :
    (scheduler.advanceTo late).Agrees id ((scheduler.advanceTo early).advanceTo late) := by
  refine ⟨rfl, rfl, rfl, ?_⟩
  rw [track_advanceTo, track_advanceTo, track_advanceTo]
  exact (Track.runTo_runTo inOrder _ _).symm

end Agrees

/-! ## Timed runs -/

theorem asOf_cons_of_le
    {scheduler : Scheduler} {time : Nat} (order : Order) (orders : List Order)
    (inTime : scheduler.now + order.duration ≤ time) :
    scheduler.asOf time (order :: orders) = (scheduler.obey order).asOf time orders :=
  if_pos inTime

theorem asOf_cons_of_not_le
    {scheduler : Scheduler} {time : Nat} (order : Order) (orders : List Order)
    (tooLate : ¬ scheduler.now + order.duration ≤ time) :
    scheduler.asOf time (order :: orders) = scheduler.advanceTo time :=
  if_neg tooLate

theorem agrees_asOf
    {id : BufferId} {scheduler other : Scheduler}
    (agrees : scheduler.Agrees id other) (time : Nat) (orders : List Order) :
    (scheduler.asOf time orders).Agrees id (other.asOf time orders) := by
  induction orders generalizing scheduler other with
  | nil => exact agrees
  | cons order orders inductionHypothesis =>
      rw [asOf, asOf, agrees.now]
      split
      · exact inductionHypothesis (agrees.obey order)
      · exact agrees.advanceTo time

/-- Two moves of the clock may be made in one. -/
theorem agrees_asOf_before
    (id : BufferId) (scheduler : Scheduler) (time : Nat) (order : Order) (orders : List Order) :
    (scheduler.asOf time (order.before orders)).Agrees id
      (scheduler.asOf time (order :: orders)) := by
  rcases Order.before_cases order orders with same | ⟨first, second, rest, rfl, rfl, merged⟩
  · rw [same]
    exact .refl id _
  · have sum :
        (scheduler.advance first).now + second = scheduler.now + (first + second) :=
      Nat.add_assoc scheduler.now first second
    rw [merged]
    by_cases passesFirst : scheduler.now + first ≤ time
    · rw [asOf_cons_of_le (.advance first) _ passesFirst]
      by_cases passesBoth : scheduler.now + (first + second) ≤ time
      · rw [asOf_cons_of_le (.advance (first + second)) _ passesBoth,
          asOf_cons_of_le (.advance second) _ (sum ▸ passesBoth)]
        refine agrees_asOf ?_ time rest
        rw [obey, obey, obey, advance, advance, sum]
        exact .advanceTo_advanceTo (Nat.add_le_add_left (Nat.le_add_right _ _) _) id scheduler
      · rw [asOf_cons_of_not_le (.advance (first + second)) _ passesBoth,
          asOf_cons_of_not_le (.advance second) _ (sum ▸ passesBoth)]
        exact .advanceTo_advanceTo passesFirst id scheduler
    · have passesNeither : ¬ scheduler.now + (first + second) ≤ time := by omega
      rw [asOf_cons_of_not_le (.advance (first + second)) _ passesNeither,
        asOf_cons_of_not_le (.advance first) _ passesFirst]
      exact .refl id _

/-- At every time of a timed run, the scheduler agrees with that of the run in which nothing is done
to other buffers. -/
theorem agrees_asOf_alone
    {id : BufferId} {scheduler other : Scheduler} {time : Nat}
    (agrees : scheduler.Agrees id other) (started : other.now ≤ time) (orders : List Order) :
    (scheduler.asOf time (Order.alone id orders)).Agrees id (other.asOf time orders) := by
  induction orders generalizing scheduler other with
  | nil => exact agrees
  | cons order orders inductionHypothesis =>
      cases own : order.concerns id with
      | false =>
          have instant : other.now + order.duration ≤ time := by
            rw [Order.duration_of_not_concerns own]
            exact started
          have stillInTime : (other.obey order).now ≤ time := now_obey other order ▸ instant
          rw [Order.alone, own, asOf, if_pos instant]
          exact inductionHypothesis (agrees.obey_foreign own) stillInTime
      | true =>
          rw [Order.alone, own, if_pos rfl]
          refine (agrees_asOf_before id scheduler time order _).trans ?_
          rw [asOf, asOf, agrees.now]
          split
          · rename_i inTime
            have stillInTime : (other.obey order).now ≤ time := now_obey other order ▸ inTime
            exact inductionHypothesis (agrees.obey order) stillInTime
          · exact agrees.advanceTo time

theorem asOf_of_total_le
    {scheduler : Scheduler} {orders : List Order} {time : Nat}
    (late : scheduler.now + Order.total orders ≤ time) :
    scheduler.asOf time orders = scheduler.follow orders := by
  induction orders generalizing scheduler with
  | nil => rfl
  | cons order orders inductionHypothesis =>
      rw [Order.total, ← Nat.add_assoc] at late
      have inTime : scheduler.now + order.duration ≤ time :=
        Nat.le_trans (Nat.le_add_right _ _) late
      rw [asOf, if_pos inTime, follow_cons]
      exact inductionHypothesis (now_obey scheduler order ▸ late)

theorem agrees_follow_alone
    (id : BufferId) (scheduler : Scheduler) (orders : List Order) :
    (scheduler.follow (Order.alone id orders)).Agrees id (scheduler.follow orders) := by
  let time := scheduler.now + Order.total orders
  have whole : scheduler.asOf time orders = scheduler.follow orders :=
    asOf_of_total_le (Nat.le_refl _)
  have alsoWhole :
      scheduler.asOf time (Order.alone id orders) =
        scheduler.follow (Order.alone id orders) :=
    asOf_of_total_le (Nat.le_of_eq (by rw [Order.total_alone]))
  rw [← whole, ← alsoWhole]
  exact agrees_asOf_alone (.refl id scheduler) (Nat.le_add_right _ _) orders

/-- A forced pass that is waited for gives the same report. -/
theorem Agrees.fst_forceAndWait
    {id : BufferId} {scheduler other : Scheduler}
    (agrees : scheduler.Agrees id other) (number : Nat) :
    (scheduler.forceAndWait id number).1 = (other.forceAndWait id number).1 := by
  have forced : (scheduler.force id number).Agrees id (other.force id number) :=
    agrees.obey (.on id (.force number) rfl)
  simp only [forceAndWait, agrees.track, forced.track, forced.now]
  split
  · rw [(forced.advanceTo _).track]
  · rw [forced.track]

/-- In every timed run, leaving out all that is done to other buffers keeps what is done to a buffer,
at the same times, and leaves its timeline as it was: at every time it is in the same state, the same
is cached and shown for it, and the same passes have ended in the same way. -/
theorem buffers_independent
    (engine : Engine) (debounce : Nat) (orders : List Order) (id : BufferId) :
    let start := Scheduler.start engine debounce
    Order.stamps start.now (Order.alone id orders) =
        (Order.stamps start.now orders).filter (·.2.concerns id) ∧
      start.timeline id (Order.alone id orders) = start.timeline id orders ∧
      -- When all is done, the clock shows the same time, the whole track is the same, and so is
      -- the report of a forced pass that is then waited for.
      (start.follow (Order.alone id orders)).now = (start.follow orders).now ∧
      (start.follow (Order.alone id orders)).track id = (start.follow orders).track id ∧
      ∀ number,
        ((start.follow (Order.alone id orders)).forceAndWait id number).1 =
          ((start.follow orders).forceAndWait id number).1 := by
  intro start
  have agrees := agrees_follow_alone id start orders
  refine ⟨Order.stamps_alone id _ orders, ?_, agrees.now, agrees.track, agrees.fst_forceAndWait⟩
  funext time
  exact (agrees_asOf_alone (.refl id start) (Nat.zero_le time) orders).glimpse

end Scheduler

end Heredoc
