import Heredoc.Proofs.Schedule.Tidy
import Mathlib.Data.List.Infix

/-!
# What the scheduler reports of a buffer

An entry keeps a count of passes, a phase, a timer and a generation, each of which is changed on its
own. As long as no entry is dropped while a pass of its buffer is in flight, they tell the truth: the
count is the number of passes in flight, the phase is read off the count and the timer, and the
timer is the one of the last event.
-/

namespace Heredoc

/-- Whether the move drops the entry of the buffer. -/
def Move.drops (id : BufferId) : Move → Bool
  | .on other .close => other = id
  | .shutdown => true
  | _ => false

namespace Entry

@[simp]
theorem running_enter (entry : Entry) : entry.enter.running = entry.running + 1 := rfl

variable {entry : Entry}

theorem rightPhase_eq_running : entry.rightPhase = .running ↔ 0 < entry.running := by
  unfold rightPhase
  by_cases some : 0 < entry.running
  · simp [some]
  · cases armed : entry.timer.isSome <;> simp [some]

theorem rightPhase_eq_pending :
    entry.rightPhase = .pending ↔ entry.running = 0 ∧ entry.timer.isSome = true := by
  unfold rightPhase
  by_cases none : entry.running = 0
  · cases armed : entry.timer.isSome <;> simp [none]
  · simp [none, Nat.pos_of_ne_zero none]

theorem rightPhase_eq_idle :
    entry.rightPhase = .idle ↔ entry.running = 0 ∧ entry.timer = none := by
  unfold rightPhase
  by_cases none : entry.running = 0
  · cases armed : entry.timer <;> simp [none]
  · simp [none, Nat.pos_of_ne_zero none]

end Entry

namespace Track

/-- The entry that the buffer has or would get counts its passes in flight, and its timer is of its
generation. -/
structure Counted (track : Track) : Prop where
  tidy : track.Tidy
  running : (track.entry.getD {}).running = track.passes.length
  generation :
    ∀ timer,
      (track.entry.getD {}).timer = some timer →
        timer.generation = (track.entry.getD {}).generation

namespace Counted

variable {track : Track}

theorem empty (id : BufferId) : (Track.empty id).Counted :=
  ⟨.empty id, rfl, by intro timer armed; cases armed⟩

/-- A buffer without passes in flight can be dropped. -/
theorem of_untracked
    (tidy : track.Tidy) (untracked : track.entry = none) (still : track.passes = []) :
    track.Counted := by
  refine ⟨tidy, by rw [untracked, still]; rfl, ?_⟩
  intro timer armed
  rw [untracked] at armed
  cases armed

theorem of_tracked
    {entry : Entry} (counted : track.Counted) (tracked : track.entry = some entry) :
    entry.running = track.passes.length ∧
      ∀ timer, entry.timer = some timer → timer.generation = entry.generation := by
  have running := counted.running
  have generation := counted.generation
  rw [tracked] at running generation
  exact ⟨running, generation⟩

/-- A pass starts, and the entry with or without its timer counts it. -/
theorem start
    {entry : Entry}
    (counted : track.Counted)
    (running : entry.running = (track.entry.getD {}).running)
    (generation : ∀ timer, entry.timer = some timer → timer.generation = entry.generation)
    (cached : Option Nat) (engine : Engine) (now : Nat) (forced : Bool) (number : Nat) :
    (Track.start engine now forced number
      { track with entry := some entry.enter, cached }).Counted := by
  have count : entry.running = track.passes.length := running.trans counted.running
  refine ⟨counted.tidy.start (Nat.le_of_eq count) cached engine now forced number, ?_, ?_⟩
  · rw [start_eq, Option.getD_some, Entry.running_enter, count, List.length_append,
      List.length_singleton]
  · rw [start_eq]
    exact generation

/-- Every action keeps the count, unless it drops a buffer with a pass in flight. -/
theorem act
    {action : Action}
    (counted : track.Counted) (spared : action = .close → track.passes = [])
    (engine : Engine) (debounce now : Nat) :
    (track.act engine debounce now action).Counted := by
  have tidy := counted.tidy.act engine debounce now action
  have step := track.becomes_act engine debounce now action
  generalize track.act engine debounce now action = after at tidy step ⊢
  cases step with
  | adds | edits | tears => exact ⟨tidy, counted.running, counted.generation⟩
  | arms =>
      refine ⟨tidy, counted.running, ?_⟩
      intro timer armed
      obtain rfl := Option.some.inj armed
      rfl
  | forces => exact counted.start rfl counted.generation none engine _ _ _
  | closes => exact of_untracked tidy rfl (spared rfl)
  | rests => exact counted
  | skips tracked =>
      refine ⟨tidy, (counted.of_tracked tracked).1, ?_⟩
      intro other armed
      cases armed
  | starts tracked =>
      refine counted.start ?_ ?_ track.cached engine _ _ _
      · rw [tracked]
        rfl
      · intro other armed
        cases armed
  | publishes member tracked =>
      obtain ⟨running, generation⟩ := counted.of_tracked tracked
      have count := length_filter_number counted.tidy.distinct member
      exact ⟨tidy, Nat.sub_eq_of_eq_add (running.trans count.symm), generation⟩
  | withholds member =>
      have count := length_filter_number counted.tidy.distinct member
      cases tracked : track.entry with
      | none =>
          -- An entry that is not there counts no pass, so that none could end.
          have running := counted.running
          rw [tracked] at running
          have nothing : 0 = track.passes.length := running
          omega
      | some entry =>
          obtain ⟨running, generation⟩ := counted.of_tracked tracked
          rw [tracked] at tidy
          exact ⟨tidy, Nat.sub_eq_of_eq_add (running.trans count.symm), generation⟩

end Counted

end Track

/-! ## Runs -/

namespace Scheduler

theorem counted_apply
    {scheduler : Scheduler} {id : BufferId} {move : Move}
    (counted : (scheduler.track id).Counted)
    (spared : move.drops id = true → (scheduler.track id).passes = []) :
    ((scheduler.apply move).track id).Counted := by
  rcases track_apply_cases scheduler id move with
    ⟨action, rfl, acted⟩ | ⟨rfl, forgotten⟩ | ⟨_, _, same⟩
  · rw [acted]
    refine counted.act ?_ _ _ _
    rintro rfl
    exact spared (decide_eq_true rfl)
  · rw [forgotten]
    exact .of_untracked counted.tidy.forget rfl (spared rfl)
  · rw [same]
    exact counted

theorem counted_run
    {scheduler : Scheduler} {id : BufferId} {moves : List Move}
    (counted : (scheduler.track id).Counted)
    (spared :
      ∀ past move, past ++ [move] <+: moves → move.drops id = true →
        ((scheduler.run past).track id).passes = []) :
    ((scheduler.run moves).track id).Counted := by
  induction moves generalizing scheduler with
  | nil => exact counted
  | cons move moves inductionHypothesis =>
      have first : (scheduler.apply move |>.track id).Counted :=
        counted_apply counted (spared [] move (by simp))
      refine inductionHypothesis first ?_
      intro past later initial
      exact spared (move :: past) later (List.cons_prefix_cons.mpr ⟨rfl, initial⟩)

/-- In every run that drops a buffer only while none of its passes is in flight: the entry of a
tracked buffer counts its passes in flight, the reported state is running, pending or idle as the
passes in flight and the timer have it, and an armed timer is of the generation of the entry. -/
theorem reported_state_true
    (engine : Engine) (debounce : Nat) (moves : List Move) (id : BufferId)
    (scheduler : Scheduler) (entry : Entry)
    (spared :
      ∀ past move, past ++ [move] <+: moves → move.drops id = true →
        (((Scheduler.start engine debounce).run past).track id).passes = [])
    (reached : (Scheduler.start engine debounce).run moves = scheduler)
    (tracked : (scheduler.track id).entry = some entry) :
    entry.running = (scheduler.track id).passes.length ∧
      (scheduler.phase? id = some .running ↔ 0 < (scheduler.track id).passes.length) ∧
      (scheduler.phase? id = some .pending ↔
        (scheduler.track id).passes.length = 0 ∧ entry.timer.isSome = true) ∧
      (scheduler.phase? id = some .idle ↔
        (scheduler.track id).passes.length = 0 ∧ entry.timer = none) ∧
      ∀ timer, entry.timer = some timer → timer.generation = entry.generation := by
  have start : ((Scheduler.start engine debounce).track id).Counted := Track.Counted.empty id
  have counted : (scheduler.track id).Counted := reached ▸ counted_run start spared
  obtain ⟨running, generation⟩ := counted.of_tracked tracked
  have reported : scheduler.phase? id = some entry.rightPhase := by
    rw [phase?, tracked, Option.map_some, (counted.tidy.entry entry tracked).phase_eq]
  rw [reported, ← running]
  simp only [Option.some.injEq]
  exact ⟨trivial, Entry.rightPhase_eq_running, Entry.rightPhase_eq_pending,
    Entry.rightPhase_eq_idle, generation⟩

/-- A buffer is closed before its timer fires and opened again; then a forced pass and an event come
in while a natural pass is in flight. -/
def crowded : List Move :=
  [.on "a.sh" (.add ⟨⟨"a.sh", 3, ["echo"]⟩, false⟩), .on "a.sh" (.notify 0), .on "a.sh" .close,
    .on "a.sh" (.notify 0), .wait 250, .on "a.sh" .fire, .on "a.sh" (.force 0),
    .on "a.sh" (.notify 0)]

theorem reported_state_true_crowded :
    (∀ past move, past ++ [move] <+: crowded → move.drops "a.sh" = true →
        (((Scheduler.start ⟨.empty, .empty, {}⟩ 250).run past).track "a.sh").passes = []) ∧
      ((Scheduler.start ⟨.empty, .empty, {}⟩ 250).run crowded).phase? "a.sh" = some .running := by
  have still :
      ∀ known ∈ crowded.inits, known.getLast?.any (·.drops "a.sh") = true →
        (((Scheduler.start ⟨.empty, .empty, {}⟩ 250).run
          known.dropLast).track "a.sh").passes.length = 0 := by
    decide
  have spared :
      ∀ past move, past ++ [move] <+: crowded → move.drops "a.sh" = true →
        (((Scheduler.start ⟨.empty, .empty, {}⟩ 250).run past).track "a.sh").passes = [] := by
    intro past move initial dropped
    have checked := still (past ++ [move]) ((List.mem_inits _ _).mpr initial)
    rw [List.getLast?_concat, List.dropLast_concat] at checked
    exact List.eq_nil_of_length_eq_zero (checked dropped)
  refine ⟨spared, ?_⟩
  have truth :=
    reported_state_true ⟨.empty, .empty, {}⟩ 250 crowded "a.sh" _
      ⟨.running, 2, some ⟨500, 2, 0⟩, 2, none⟩ spared rfl (by decide)
  exact truth.2.1.mpr (by rw [← truth.1]; decide)

end Scheduler

end Heredoc
