import Heredoc.Proofs.Engine.Segments
import Mathlib.Data.List.Induction
import Mathlib.Data.List.Nodup

/-!
# A dispatch whose validators run side by side

A dispatch goes over the regions twice. The first time it starts a task for each body that a
validator gets and leaves a slot for it; the second time it takes up the slots in order and waits
for each task. The tasks end in any order, also while regions are still unread. How the task of a
region ends is left open, so that two calls of one validator may end differently.

Main statements: one step keeps `Dispatching.Sound` (`Dispatching.Sound.advance`), no run gets
stuck (`Dispatching.exists_isOver`), and whatever the order, a run that is over has called each
validator once and leaves the segments of the regions (`Engine.dispatch_segments`).
-/

namespace Heredoc

/-- A call of a validator, with the number of the region that it is for. -/
structure Call where
  number : Nat
  key : String
  body : String
deriving DecidableEq, Repr

/-- What stands for a region after it was read. -/
inductive Slot where
  | done (diagnostic : Diagnostic)
  | running (call : Call) (bodyStart : Nat)
deriving DecidableEq, Repr

namespace Slot

/-- The call that a slot waits for. -/
def call? : Slot → Option Call
  | .done _ => none
  | .running call _ => some call

/-- What is taken from a slot, if the calls end like this. -/
def segment (outcomes : Nat → Outcome) : Slot → List Diagnostic
  | .done diagnostic => [diagnostic]
  | .running call bodyStart => (outcomes call.number).diagnostics bodyStart call.key

/-- Whether a slot can be taken up. -/
def isReady (ended : List Call) (slot : Slot) : Bool :=
  slot.call?.all (· ∈ ended)

theorem exists_of_not_isReady
    {ended : List Call} {slot : Slot} (notReady : slot.isReady ended = false) :
    ∃ call, slot.call? = some call ∧ call ∉ ended := by
  cases slot with
  | done diagnostic => cases notReady
  | running call bodyStart => exact ⟨call, rfl, by simpa [isReady, call?] using notReady⟩

end Slot

namespace Engine

/-- What is put down for a numbered region when it is read. -/
def slot? (engine : Engine) (view : View) (pair : Region × Nat) : Option Slot :=
  match engine.validatorFor? pair.1.tag with
  | none => none
  | some (key, _) =>
      if (view.bodyText pair.1).utf8ByteSize > engine.settings.maxBytes then
        some (.done (.tooLarge key (clamp32 pair.1.bodyStart)))
      else some (.running ⟨pair.2, key, view.bodyText pair.1⟩ pair.1.bodyStart)

/-- The call that is started for a numbered region. -/
def call? (engine : Engine) (view : View) (pair : Region × Nat) : Option Call :=
  (engine.slot? view pair).bind Slot.call?

/-- The calls are those of the regions that are routed and fit, one for each. -/
structure Invokes (engine : Engine) (view : View) (regions : List Region) (calls : List Call) :
    Prop where
  once : (calls.map Call.number).Nodup
  exact :
    ∀ call,
      call ∈ calls ↔
        ∃ region,
          regions[call.number]? = some region ∧
            engine.Routes region call.key ∧
              engine.Fits view region ∧ call.body = view.bodyText region

end Engine

/-- A dispatch under way. -/
structure Dispatching where
  /-- The regions that are still to be read, with their numbers. -/
  unread : List (Region × Nat)
  /-- The slots that are still to be taken up. -/
  slots : List Slot
  running : List Call
  /-- The calls that have ended, in the order in which they did. -/
  ended : List Call
  diagnostics : List Diagnostic

namespace Dispatching

/-- What can happen next. -/
inductive Event where
  | read
  | finish (call : Call)
  | collect
deriving DecidableEq, Repr

/-- Nothing has been read. -/
def start (regions : List Region) : Dispatching :=
  ⟨regions.zipIdx, [], [], [], []⟩

/-- Nothing is left to read or to take up. -/
def isOver (state : Dispatching) : Bool :=
  state.unread.isEmpty && state.slots.isEmpty

/-- Carries out an event; one that cannot happen yet changes nothing. -/
def step (engine : Engine) (view : View) (outcomes : Nat → Outcome) (state : Dispatching) :
    Event → Dispatching
  | .read =>
      match state.unread with
      | [] => state
      | pair :: rest =>
          { state with
            unread := rest
            slots := state.slots ++ (engine.slot? view pair).toList
            running := state.running ++ (engine.call? view pair).toList }
  | .finish call =>
      if call ∈ state.running then
        { state with running := state.running.erase call, ended := state.ended ++ [call] }
      else state
  | .collect =>
      -- Slots are taken up only when all regions are read.
      match state.unread, state.slots with
      | [], slot :: rest =>
          if slot.isReady state.ended then
            { state with
              slots := rest
              diagnostics := state.diagnostics ++ slot.segment outcomes }
          else state
      | _, _ => state

/-- The dispatch of regions after some events. -/
def run (engine : Engine) (view : View) (outcomes : Nat → Outcome) (regions : List Region)
    (events : List Event) : Dispatching :=
  events.foldl (step engine view outcomes) (start regions)

/-- How much there is to do; a region that is read can leave a slot and a call. -/
def work (state : Dispatching) : Nat :=
  3 * state.unread.length + state.slots.length + state.running.length

end Dispatching

/-! ## What is put down for a region -/

namespace Engine

variable {engine : Engine} {view : View}

theorem flatMap_slot? (outcomes : Nat → Outcome) (pair : Region × Nat) :
    (engine.slot? view pair).toList.flatMap (Slot.segment outcomes) =
      engine.segment view pair.1 (outcomes pair.2) := by
  cases routing : engine.validatorFor? pair.1.tag with
  | none => simp [slot?, segment, routing]
  | some found =>
      simp only [slot?, segment, routing]
      split
      · rfl
      · simp [Slot.segment]

theorem call?_eq_some_iff {pair : Region × Nat} {call : Call} :
    engine.call? view pair = some call ↔
      call.number = pair.2 ∧
        engine.Routes pair.1 call.key ∧
          engine.Fits view pair.1 ∧ call.body = view.bodyText pair.1 := by
  constructor
  · intro started
    cases routing : engine.validatorFor? pair.1.tag with
    | none => simp [call?, slot?, routing] at started
    | some found =>
        have routed := routes_of_validatorFor? routing
        simp only [call?, slot?, routing] at started
        split at started
        · cases started
        · rename_i notAbove
          cases started
          exact ⟨rfl, routed, Nat.le_of_not_lt notAbove, rfl⟩
  · rintro ⟨number, routed, fits, body⟩
    obtain ⟨validator, routing⟩ := routed.exists_validator
    have notAbove : ¬ (view.bodyText pair.1).utf8ByteSize > engine.settings.maxBytes :=
      Nat.not_lt_of_le fits
    simp only [call?, slot?, routing, if_neg notAbove, Option.bind_some, Slot.call?]
    rw [← number, ← body]

/-- The regions have the calls that they should have. -/
theorem invokes_filterMap_call? (engine : Engine) (view : View) (regions : List Region) :
    engine.Invokes view regions (regions.zipIdx.filterMap (engine.call? view)) where
  once := by
    have ascending : regions.zipIdx.Pairwise (fun pair later => pair.2 < later.2) := by
      rw [← List.pairwise_map, List.zipIdx_map_snd]
      exact List.pairwise_lt_range'
    rw [List.nodup_iff_pairwise_ne, List.pairwise_map, List.pairwise_filterMap]
    refine ascending.imp ?_
    intro pair later before call started other startedLater
    rw [(call?_eq_some_iff.mp started).1, (call?_eq_some_iff.mp startedLater).1]
    exact Nat.ne_of_lt before
  exact call := by
    simp only [List.mem_filterMap, call?_eq_some_iff]
    constructor
    · rintro ⟨pair, present, number, routed⟩
      have found := List.mem_zipIdx_iff_getElem?.mp present
      rw [← number] at found
      exact ⟨pair.1, found, routed⟩
    · rintro ⟨region, found, routed⟩
      exact ⟨(region, call.number), List.mem_zipIdx_iff_getElem?.mpr found, rfl, routed⟩

theorem Invokes.perm
    {regions : List Region} {calls others : List Call}
    (invoked : engine.Invokes view regions calls) (same : others.Perm calls) :
    engine.Invokes view regions others where
  once := (same.map Call.number).nodup_iff.mpr invoked.once
  exact call := same.mem_iff.trans (invoked.exact call)

theorem calls_dispatchRegion (engine : Engine) (view : View) (pair : Region × Nat) :
    (engine.dispatchRegion view pair.1).calls =
      ((engine.call? view pair).map Call.key).toList := by
  cases routing : engine.validatorFor? pair.1.tag with
  | none => simp [dispatchRegion, call?, slot?, routing, Dispatched.nothing]
  | some found =>
      simp only [dispatchRegion, call?, slot?, routing]
      split <;> rfl

theorem calls_dispatch (engine : Engine) (view : View) (regions : List Region) :
    (engine.dispatch view regions).calls =
      (regions.zipIdx.filterMap (engine.call? view)).map Call.key := by
  -- The numbers do not matter for the keys, so that the induction may count on.
  suffices
      ∀ first,
        (engine.dispatch view regions).calls =
          ((regions.zipIdx first).filterMap (engine.call? view)).map Call.key from this 0
  induction regions with
  | nil => exact fun _ => rfl
  | cons region rest inductionHypothesis =>
      intro first
      have here := engine.calls_dispatchRegion view (region, first)
      have there := inductionHypothesis (first + 1)
      calc
        (engine.dispatch view (region :: rest)).calls =
            (engine.dispatchRegion view region).calls ++ (engine.dispatch view rest).calls := rfl
        _ = _ := by
            rw [here, there, List.zipIdx_cons, List.filterMap_cons]
            cases engine.call? view (region, first) <;> rfl

end Engine

namespace Dispatching

variable {engine : Engine} {view : View} {outcomes : Nat → Outcome} {regions : List Region}
  {state next : Dispatching}

/-! ## One step -/

/-- What an event can do. -/
inductive Advance (engine : Engine) (view : View) (outcomes : Nat → Outcome)
    (state : Dispatching) : Dispatching → Prop where
  | idle : Advance engine view outcomes state state
  | read {pair : Region × Nat} {rest : List (Region × Nat)}
      (unread : state.unread = pair :: rest) :
      Advance engine view outcomes state
        { state with
          unread := rest
          slots := state.slots ++ (engine.slot? view pair).toList
          running := state.running ++ (engine.call? view pair).toList }
  | finish {call : Call}
      (running : call ∈ state.running) :
      Advance engine view outcomes state
        { state with running := state.running.erase call, ended := state.ended ++ [call] }
  | collect {slot : Slot} {rest : List Slot}
      (allRead : state.unread = [])
      (slots : state.slots = slot :: rest)
      (ready : slot.isReady state.ended = true) :
      Advance engine view outcomes state
        { state with slots := rest, diagnostics := state.diagnostics ++ slot.segment outcomes }

theorem advance_step (engine : Engine) (view : View) (outcomes : Nat → Outcome)
    (state : Dispatching) (event : Event) :
    Advance engine view outcomes state (state.step engine view outcomes event) := by
  cases event with
  | read =>
      simp only [step]
      split
      · exact .idle
      · rename_i unread
        exact .read unread
  | finish call =>
      simp only [step]
      split
      · rename_i running
        exact .finish running
      · exact .idle
  | collect =>
      simp only [step]
      split
      · rename_i allRead slots
        split
        · rename_i ready
          exact .collect allRead slots ready
        · exact .idle
      · exact .idle

/-- What is done and what there is to do. -/
structure Sound (engine : Engine) (view : View) (outcomes : Nat → Outcome)
    (regions : List Region) (state : Dispatching) : Prop where
  segments :
    state.diagnostics ++ state.slots.flatMap (Slot.segment outcomes) ++
        engine.segments view outcomes state.unread =
      engine.segments view outcomes regions.zipIdx
  calls :
    (state.ended ++ state.running ++ state.unread.filterMap (engine.call? view)).Perm
      (regions.zipIdx.filterMap (engine.call? view))
  /-- No slot waits in vain. -/
  started : ∀ slot ∈ state.slots, ∀ call ∈ slot.call?, call ∈ state.running ∨ call ∈ state.ended
  /-- No call is forgotten. -/
  awaited : ∀ call ∈ state.running, ∃ slot ∈ state.slots, slot.call? = some call

theorem sound_start (engine : Engine) (view : View) (outcomes : Nat → Outcome)
    (regions : List Region) : Sound engine view outcomes regions (start regions) where
  segments := rfl
  calls := .refl _
  started _ present := absurd present List.not_mem_nil
  awaited _ running := absurd running List.not_mem_nil

/-- A call that has ended does not run again. -/
theorem Sound.not_mem_running
    (sound : Sound engine view outcomes regions state) {call : Call} (ended : call ∈ state.ended) :
    call ∉ state.running := by
  have allOnce : (regions.zipIdx.filterMap (engine.call? view)).Nodup :=
    List.Nodup.of_map Call.number (engine.invokes_filterMap_call? view regions).once
  have once := sound.calls.nodup_iff.mpr allOnce
  rw [List.append_assoc] at once
  have apart := (List.nodup_append.mp once).2.2
  intro running
  exact apart call ended call (List.mem_append_left _ running) rfl

theorem Sound.advance
    (sound : Sound engine view outcomes regions state)
    (advanced : Advance engine view outcomes state next) :
    Sound engine view outcomes regions next := by
  cases advanced with
  | idle => exact sound
  | @read pair rest unread =>
      refine ⟨?_, ?_, ?_, ?_⟩
      · have before := sound.segments
        rw [unread, Engine.segments, List.flatMap_cons] at before
        rw [← before, List.flatMap_append, Engine.flatMap_slot?]
        simp only [List.append_assoc, Engine.segments]
      · have before := sound.calls
        rw [unread] at before
        refine List.Perm.trans (List.Perm.of_eq ?_) before
        simp only [List.filterMap_cons]
        cases engine.call? view pair <;> simp
      · intro slot present call waited
        rcases List.mem_append.mp present with old | new
        · exact (sound.started slot old call waited).imp (List.mem_append_left _) id
        · have put : engine.slot? view pair = some slot := Option.mem_toList.mp new
          have called : engine.call? view pair = some call := by
            rw [Engine.call?, put]
            exact waited
          exact .inl (List.mem_append_right _ (Option.mem_toList.mpr called))
      · intro call running
        rcases List.mem_append.mp running with old | new
        · obtain ⟨slot, present, waited⟩ := sound.awaited call old
          exact ⟨slot, List.mem_append_left _ present, waited⟩
        · have called : (engine.slot? view pair).bind Slot.call? = some call :=
            Option.mem_toList.mp new
          obtain ⟨slot, put, waited⟩ := Option.bind_eq_some_iff.mp called
          exact ⟨slot, List.mem_append_right _ (Option.mem_toList.mpr put), waited⟩
  | @finish call running =>
      refine ⟨sound.segments, ?_, ?_, ?_⟩
      · have moved : (call :: state.running.erase call).Perm state.running :=
          (List.perm_cons_erase running).symm
        have kept :
            (state.ended ++ [call] ++ state.running.erase call).Perm
              (state.ended ++ state.running) := by
          rw [List.append_assoc]
          exact moved.append_left state.ended
        exact (kept.append_right _).trans sound.calls
      · intro slot present other waited
        by_cases same : other = call
        · exact .inr (List.mem_append_right _ (List.mem_singleton.mpr same))
        · rcases sound.started slot present other waited with still | ended
          · exact .inl ((List.mem_erase_of_ne same).mpr still)
          · exact .inr (List.mem_append_left _ ended)
      · intro other still
        exact sound.awaited other (List.mem_of_mem_erase still)
  | @collect slot rest allRead slots ready =>
      refine ⟨?_, sound.calls, ?_, ?_⟩
      · rw [← sound.segments, slots, List.flatMap_cons]
        simp only [List.append_assoc]
      · intro other present
        exact sound.started other (by rw [slots]; exact List.mem_cons_of_mem slot present)
      · intro call running
        obtain ⟨other, present, waited⟩ := sound.awaited call running
        rw [slots] at present
        rcases List.mem_cons.mp present with rfl | later
        · -- The slot is taken up because its call has ended.
          have ended : call ∈ state.ended := by
            simpa [Slot.isReady, waited] using ready
          exact absurd running (sound.not_mem_running ended)
        · exact ⟨other, later, waited⟩

/-- Every event that does something leaves less to do. -/
theorem Advance.work_lt (advanced : Advance engine view outcomes state next) :
    next = state ∨ next.work < state.work := by
  cases advanced with
  | idle => exact .inl rfl
  | @read pair rest unread =>
      have atMostOne : (engine.slot? view pair).toList.length ≤ 1 := by
        cases engine.slot? view pair <;> simp
      have atMostOneCall : (engine.call? view pair).toList.length ≤ 1 := by
        cases engine.call? view pair <;> simp
      refine .inr ?_
      simp only [work, unread, List.length_cons, List.length_append]
      omega
  | @finish call running =>
      have someRuns : 0 < state.running.length := List.length_pos_of_mem running
      refine .inr ?_
      simp only [work, List.length_erase_of_mem running]
      omega
  | collect allRead slots ready =>
      refine .inr ?_
      simp only [work, slots, List.length_cons]
      omega

/-! ## Runs -/

theorem run_append (events more : List Event) :
    run engine view outcomes regions (events ++ more) =
      more.foldl (step engine view outcomes) (run engine view outcomes regions events) :=
  List.foldl_append

theorem sound_run (engine : Engine) (view : View) (outcomes : Nat → Outcome)
    (regions : List Region) (events : List Event) :
    Sound engine view outcomes regions (run engine view outcomes regions events) := by
  induction events using List.reverseRecOn with
  | nil => exact sound_start engine view outcomes regions
  | append_singleton events event inductionHypothesis =>
      rw [run_append]
      exact inductionHypothesis.advance (advance_step engine view outcomes _ event)

/-- While a dispatch is not over, something can be done. -/
theorem Sound.exists_step_lt
    (sound : Sound engine view outcomes regions state) (notOver : state.isOver = false) :
    ∃ event, (state.step engine view outcomes event).work < state.work := by
  have less {event : Event} (changed : state.step engine view outcomes event ≠ state) :
      (state.step engine view outcomes event).work < state.work :=
    (advance_step engine view outcomes state event).work_lt.resolve_left changed
  cases unread : state.unread with
  | cons pair rest =>
      refine ⟨.read, less fun same => ?_⟩
      have shorter := congrArg (fun reached => reached.unread.length) same
      simp [step, unread] at shorter
  | nil =>
      cases slots : state.slots with
      | nil =>
          simp [isOver, unread, slots] at notOver
      | cons slot rest =>
          cases ready : slot.isReady state.ended with
          | true =>
              refine ⟨.collect, less fun same => ?_⟩
              have shorter := congrArg (fun reached => reached.slots.length) same
              simp [step, unread, slots, ready] at shorter
          | false =>
              -- The slot waits for a call that has not ended, and which therefore still runs.
              obtain ⟨call, waited, notEnded⟩ := Slot.exists_of_not_isReady ready
              have first : slot ∈ state.slots := by
                rw [slots]
                exact List.mem_cons_self
              have running : call ∈ state.running :=
                (sound.started slot first call waited).resolve_right notEnded
              refine ⟨.finish call, less fun same => ?_⟩
              have longer := congrArg (fun reached => reached.ended.length) same
              simp [step, running] at longer

/-- No run gets stuck: from every state of a run there is a way to its end. -/
theorem Sound.exists_isOver
    (sound : Sound engine view outcomes regions state) :
    ∃ rest : List Event, (rest.foldl (step engine view outcomes) state).isOver = true := by
  induction todo : state.work using Nat.strongRecOn generalizing state with
  | ind amount inductionHypothesis =>
      cases atEnd : state.isOver with
      | true => exact ⟨[], atEnd⟩
      | false =>
          obtain ⟨event, less⟩ := sound.exists_step_lt atEnd
          rw [todo] at less
          have sound' := sound.advance (advance_step engine view outcomes state event)
          obtain ⟨rest, done⟩ := inductionHypothesis _ less sound' rfl
          exact ⟨event :: rest, done⟩

theorem exists_isOver (events : List Event) :
    ∃ rest, (run engine view outcomes regions (events ++ rest)).isOver = true := by
  obtain ⟨rest, atEnd⟩ := (sound_run engine view outcomes regions events).exists_isOver
  exact ⟨rest, by rw [run_append]; exact atEnd⟩

/-! ## The end of a run -/

theorem Sound.segments_of_isOver
    (sound : Sound engine view outcomes regions state) (atEnd : state.isOver = true) :
    engine.segments view outcomes regions.zipIdx = state.diagnostics := by
  obtain ⟨allRead, allCollected⟩ : state.unread = [] ∧ state.slots = [] := by
    simpa [isOver] using atEnd
  rw [← sound.segments, allRead, allCollected]
  simp [Engine.segments]

theorem Sound.ended_of_isOver
    (sound : Sound engine view outcomes regions state) (atEnd : state.isOver = true) :
    state.ended.Perm (regions.zipIdx.filterMap (engine.call? view)) := by
  obtain ⟨allRead, allCollected⟩ : state.unread = [] ∧ state.slots = [] := by
    simpa [isOver] using atEnd
  -- Nothing runs on, since no slot waits for it.
  have noneRuns : state.running = [] := by
    refine List.eq_nil_iff_forall_not_mem.mpr fun call running => ?_
    obtain ⟨slot, present, _⟩ := sound.awaited call running
    rw [allCollected] at present
    exact absurd present List.not_mem_nil
  have calls := sound.calls
  rw [allRead, noneRuns, List.filterMap_nil, List.append_nil, List.append_nil] at calls
  exact calls

end Dispatching

namespace Engine

/-- Two lists of diagnostics that have the segments before and after a region in common. The region
is the one after `left`, and only its outcome may differ. -/
def DifferInOne (engine : Engine) (view : View) (left : List Region) (region : Region)
    (right : List Region) (outcomes changed : Nat → Outcome) (diagnostics others : List Diagnostic) :
    Prop :=
  ∃ before segment replaced after,
    diagnostics = before ++ segment ++ after ∧
      others = before ++ replaced ++ after ∧
        engine.Concatenates view left outcomes before ∧
          engine.Yields view region (outcomes left.length) segment ∧
            engine.Yields view region (changed left.length) replaced ∧
              engine.Concatenates view right (fun number => outcomes (left.length + 1 + number))
                after

theorem differInOne_segments
    (engine : Engine) (view : View) (left : List Region) (region : Region) (right : List Region)
    {outcomes changed : Nat → Outcome}
    (same : ∀ number, number ≠ left.length → changed number = outcomes number) :
    engine.DifferInOne view left region right outcomes changed
      (engine.segments view outcomes (left ++ region :: right).zipIdx)
      (engine.segments view changed (left ++ region :: right).zipIdx) := by
  have before :
      engine.segments view changed left.zipIdx = engine.segments view outcomes left.zipIdx :=
    segments_congr left fun number inside => same number (Nat.ne_of_lt inside)
  have after :
      (fun number => changed (left.length + 1 + number)) =
        fun number => outcomes (left.length + 1 + number) := by
    funext number
    exact same _ (by omega)
  refine ⟨_, _, _, _, engine.segments_append_cons view outcomes left right region, ?_,
    concatenates_iff.mpr rfl, yields_iff.mpr rfl, yields_iff.mpr rfl, concatenates_iff.mpr rfl⟩
  rw [engine.segments_append_cons view changed left right region, before, after]

/-- A dispatch leaves one segment for each region, in order, and calls the validator of each region
that is routed and fits, once, in whatever order the calls end; no run gets stuck or goes on for
ever. Another outcome for one region changes the segment of this region at most. -/
theorem dispatch_segments
    (engine : Engine) (view : View) (regions : List Region) (outcomes : Nat → Outcome)
    (events : List Dispatching.Event) (state : Dispatching)
    (reached : Dispatching.run engine view outcomes regions events = state) :
    ((∃ rest, (Dispatching.run engine view outcomes regions (events ++ rest)).isOver = true) ∧
      ∀ event,
        state.step engine view outcomes event = state ∨
          (state.step engine view outcomes event).work < state.work) ∧
    (state.isOver = true →
      (∀ diagnostics,
        engine.Concatenates view regions outcomes diagnostics ↔ state.diagnostics = diagnostics) ∧
      engine.Invokes view regions state.ended ∧
      (state.ended.map Call.key).Perm (engine.dispatch view regions).calls ∧
      (outcomes = engine.answers view regions →
        state.diagnostics = (engine.dispatch view regions).diagnostics) ∧
      ∀ left region right changed otherEvents other,
        regions = left ++ region :: right →
          (∀ number, number ≠ left.length → changed number = outcomes number) →
            Dispatching.run engine view changed regions otherEvents = other →
              other.isOver = true →
                engine.DifferInOne view left region right outcomes changed state.diagnostics
                  other.diagnostics) ∧
    (∀ diagnostics,
      engine.Concatenates view regions (engine.answers view regions) diagnostics ↔
        (engine.dispatch view regions).diagnostics = diagnostics) ∧
    ∀ later,
      engine.dispatch view (regions ++ later) =
        (engine.dispatch view regions).append (engine.dispatch view later) := by
  have sound : Dispatching.Sound engine view outcomes regions state := by
    rw [← reached]
    exact Dispatching.sound_run engine view outcomes regions events
  refine ⟨⟨Dispatching.exists_isOver events, fun event => ?_⟩, fun atEnd => ?_, ?_, ?_⟩
  · exact (Dispatching.advance_step engine view outcomes state event).work_lt
  · have left := sound.segments_of_isOver atEnd
    have ended := sound.ended_of_isOver atEnd
    refine ⟨?_, ?_, ?_, ?_, ?_⟩
    · intro diagnostics
      rw [concatenates_iff, left]
    · exact (engine.invokes_filterMap_call? view regions).perm ended
    · rw [engine.calls_dispatch view regions]
      exact ended.map Call.key
    · rintro rfl
      rw [← left, engine.segments_answers view regions]
    · rintro before region after changed otherEvents other rfl same rfl otherOver
      have otherSound :=
        Dispatching.sound_run engine view changed (before ++ region :: after) otherEvents
      rw [← left, ← otherSound.segments_of_isOver otherOver]
      exact engine.differInOne_segments view before region after same
  · intro diagnostics
    rw [concatenates_iff, engine.segments_answers view regions]
  · exact engine.dispatch_append view regions

/-- An engine with a validator that crashes and one that finds fault. -/
def troubled : Engine where
  tags := ⟨[("JSON", "json"), ("XML", "xml")]⟩
  validators :=
    ⟨[("json", ⟨"json", fun _ => 5, fun _ => .crashed (some "stack overflow")⟩),
      ("xml", ⟨"xml", fun _ => 0, fun _ => .findings [.error "unclosed" (.lineStart 0)]⟩)]⟩
  settings := {}

def twoLines : View :=
  (⟨"a.sh", 1, ["[1", "<a>"]⟩ : Document).view

/-- A region for each validator, and one between them that none gets. -/
def threeRegions : List Region :=
  [⟨"JSON", 0, 1⟩, ⟨"SQL", 0, 9⟩, ⟨"XML", 1, 2⟩]

/-- The second call ends first, at a time when nothing can be collected. -/
def crossing : List Dispatching.Event :=
  [.read, .read, .read, .finish ⟨2, "xml", "<a>"⟩, .collect, .finish ⟨0, "json", "[1"⟩, .collect,
    .collect]

/-- The crash leaves one error, in its place; if the validator found nothing instead, the rest
would stay. -/
theorem dispatch_segments_crossing :
    let state :=
      Dispatching.run troubled twoLines (troubled.answers twoLines threeRegions) threeRegions
        crossing
    let calm := fun number =>
      if number = 0 then .findings [] else troubled.answers twoLines threeRegions number
    state.diagnostics =
        [.validatorFailed "json" 0 "validator panicked: stack overflow",
          ⟨"unclosed", .error, .lineStart 1, "heredoc:xml", .malformed⟩] ∧
      troubled.Invokes twoLines threeRegions state.ended ∧
      troubled.DifferInOne twoLines [] ⟨"JSON", 0, 1⟩ [⟨"SQL", 0, 9⟩, ⟨"XML", 1, 2⟩]
        (troubled.answers twoLines threeRegions) calm state.diagnostics
        (Dispatching.run troubled twoLines calm threeRegions crossing).diagnostics := by
  intro state calm
  obtain ⟨_, finished, _⟩ :=
    dispatch_segments troubled twoLines threeRegions (troubled.answers twoLines threeRegions)
      crossing state rfl
  obtain ⟨_, invoked, _, dispatched, isolated⟩ := finished (by decide +kernel)
  refine ⟨?_, invoked, isolated [] _ _ calm crossing _ rfl ?_ rfl (by decide +kernel)⟩
  · rw [dispatched rfl]
    decide +kernel
  · intro number other
    exact if_neg other

end Engine

end Heredoc
