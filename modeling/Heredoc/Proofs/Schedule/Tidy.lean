import Heredoc.Proofs.Schedule.Step
import Mathlib.Data.List.Nodup

/-!
# The books of a track

Whatever happens in a run, and even if a buffer is closed or forgotten while passes are in flight:
the passes in flight have different numbers, an entry counts no more passes than there are, and its
phase is the one that its count and its timer call for.
-/

namespace Heredoc

namespace Entry

/-- The phase that the count of passes and the timer call for. -/
def rightPhase (entry : Entry) : Phase :=
  if 0 < entry.running then .running
  else if entry.timer.isSome then .pending
  else .idle

/-- The entry counts at most so many passes and has the right phase. -/
structure Tidy (entry : Entry) (inFlight : Nat) : Prop where
  running_le : entry.running ≤ inFlight
  phase_eq : entry.phase = entry.rightPhase

namespace Tidy

theorem fresh (inFlight : Nat) : ({} : Entry).Tidy inFlight :=
  ⟨Nat.zero_le _, rfl⟩

theorem enter
    {entry : Entry} {inFlight : Nat}
    (bound : entry.running ≤ inFlight) :
    entry.enter.Tidy (inFlight + 1) := by
  refine ⟨Nat.succ_le_succ bound, ?_⟩
  have positive : 0 < entry.enter.running := Nat.succ_pos _
  rw [rightPhase, if_pos positive]
  rfl

theorem leave
    {entry : Entry} {inFlight : Nat}
    (tidy : entry.Tidy (inFlight + 1)) :
    entry.leave.Tidy inFlight := by
  have bound := tidy.running_le
  refine ⟨by simp only [Entry.leave]; omega, ?_⟩
  by_cases last : entry.running - 1 = 0
  · simp [Entry.leave, rightPhase, last]
  · -- More than one pass was counted, so the phase was and stays that of a running buffer.
    have positive : 0 < entry.running := by omega
    have stays : 0 < entry.running - 1 := by omega
    have phase : entry.phase = .running := by
      rw [tidy.phase_eq, rightPhase, if_pos positive]
    simp [Entry.leave, rightPhase, last, stays, phase]

theorem arm
    {entry : Entry} {inFlight : Nat}
    (tidy : entry.Tidy inFlight) (due source : Nat) :
    (entry.arm due source).Tidy inFlight := by
  refine ⟨tidy.running_le, ?_⟩
  have phase := tidy.phase_eq
  by_cases noneRuns : entry.running = 0
  · simp [Entry.arm, rightPhase, noneRuns]
  · have positive : 0 < entry.running := Nat.pos_of_ne_zero noneRuns
    rw [rightPhase, if_pos positive] at phase
    simp [Entry.arm, rightPhase, noneRuns, positive, phase]

theorem skip
    {entry : Entry} {inFlight : Nat}
    (tidy : entry.Tidy inFlight) :
    entry.skip.Tidy inFlight :=
  leave (enter tidy.running_le)

theorem publish
    {entry : Entry} {inFlight : Nat}
    (tidy : entry.Tidy inFlight) (version : Option Nat) :
    ({ entry with published := version } : Entry).Tidy inFlight :=
  ⟨tidy.running_le, tidy.phase_eq⟩

/-- A pass that leaves an entry that counts none changes nothing. -/
theorem leave_eq_self_iff
    {entry : Entry} {inFlight : Nat}
    (tidy : entry.Tidy inFlight) :
    entry.leave = entry ↔ entry.running = 0 := by
  constructor
  · intro same
    have running : entry.running - 1 = entry.running := congrArg Entry.running same
    omega
  · intro noneRuns
    have phase := tidy.phase_eq
    rw [rightPhase, if_neg (by omega)] at phase
    cases entry
    simp_all [Entry.leave]

end Tidy

end Entry

namespace Track

/-- The passes in flight have different numbers, all given out before, and the entry is in order. -/
structure Tidy (track : Track) : Prop where
  distinct : (track.passes.map Pass.number).Nodup
  below : ∀ pass ∈ track.passes, pass.number < track.started
  entry : ∀ entry, track.entry = some entry → entry.Tidy track.passes.length

theorem filter_number_cons
    {first : Pass} {rest : List Pass}
    (distinct : ((first :: rest).map Pass.number).Nodup) :
    (first :: rest).filter (·.number ≠ first.number) = rest := by
  rw [List.map_cons, List.nodup_cons] at distinct
  rw [List.filter_cons_of_neg (by simp), List.filter_eq_self]
  intro other otherMember
  have different : other.number ≠ first.number := by
    intro same
    exact distinct.1 (same ▸ List.mem_map_of_mem otherMember)
  simpa using different

theorem length_filter_number
    {passes : List Pass} {pass : Pass}
    (distinct : (passes.map Pass.number).Nodup)
    (member : pass ∈ passes) :
    (passes.filter (·.number ≠ pass.number)).length + 1 = passes.length := by
  induction passes with
  | nil => simp at member
  | cons first rest inductionHypothesis =>
      rcases List.mem_cons.mp member with rfl | inRest
      · rw [filter_number_cons distinct, List.length_cons]
      · rw [List.map_cons, List.nodup_cons] at distinct
        obtain ⟨firstAbsent, restDistinct⟩ := distinct
        have different : first.number ≠ pass.number := by
          intro same
          exact firstAbsent (same ▸ List.mem_map_of_mem inRest)
        rw [List.filter_cons_of_pos (by simpa using different), List.length_cons,
          List.length_cons, inductionHypothesis restDistinct inRest]

namespace Tidy

theorem empty (id : BufferId) : (Track.empty id).Tidy :=
  ⟨by simp [Track.empty], by simp [Track.empty], by simp [Track.empty]⟩

/-- A pass is known by its number. -/
theorem eq_of_number
    {track : Track} {pass other : Pass}
    (tidy : track.Tidy)
    (member : pass ∈ track.passes) (otherMember : other ∈ track.passes)
    (same : pass.number = other.number) :
    pass = other :=
  List.inj_on_of_nodup_map tidy.distinct member otherMember same

/-- The end of a pass leaves every other pass in flight. -/
theorem mem_filter_number
    {track : Track} {pass other : Pass}
    (tidy : track.Tidy)
    (member : pass ∈ track.passes) (otherMember : other ∈ track.passes)
    (different : other ≠ pass) :
    other ∈ track.passes.filter (·.number ≠ pass.number) := by
  refine List.mem_filter.mpr ⟨otherMember, ?_⟩
  have differentNumber : other.number ≠ pass.number :=
    fun same => different (tidy.eq_of_number otherMember member same)
  simpa using differentNumber

/-- The pass of a number that is in flight ends. -/
theorem finish_eq_complete
    {track : Track} {pass : Pass}
    (tidy : track.Tidy) (member : pass ∈ track.passes) :
    track.finish pass.number = track.complete pass := by
  unfold finish
  cases found : track.passes.find? (·.number = pass.number) with
  | none =>
      have absent := List.find?_eq_none.mp found pass member
      simp at absent
  | some other =>
      have sameNumber : other.number = pass.number := by
        simpa using List.find?_some found
      have samePass : other = pass :=
        tidy.eq_of_number (List.mem_of_find?_eq_some found) member sameNumber
      rw [samePass]

/-- The entry that a buffer has or gets is in order. -/
theorem getD
    {track : Track} (tidy : track.Tidy) :
    (track.entry.getD {}).Tidy track.passes.length := by
  cases tracked : track.entry with
  | none => exact Entry.Tidy.fresh _
  | some entry => exact tidy.entry entry tracked

theorem schedule
    {track : Track} (tidy : track.Tidy) (debounce now source : Nat) :
    (track.schedule debounce now source).Tidy := by
  refine ⟨tidy.distinct, tidy.below, ?_⟩
  intro entry found
  rw [← Option.some.inj found]
  exact tidy.getD.arm _ _

/-- A pass starts and its entry counts it. -/
theorem start
    {track : Track} {entry : Entry}
    (tidy : track.Tidy)
    (bound : entry.running ≤ track.passes.length)
    (cached : Option Nat) (engine : Engine) (now : Nat) (forced : Bool) (number : Nat) :
    (Track.start engine now forced number
      { track with entry := some entry.enter, cached }).Tidy := by
  rw [start_eq]
  refine ⟨?_, ?_, ?_⟩
  · simp only [List.map_append, List.map_cons, List.map_nil]
    refine List.nodup_append.mpr ⟨tidy.distinct, by simp, ?_⟩
    intro earlier earlierMember latest latestMember same
    obtain ⟨pass, member, rfl⟩ := List.mem_map.mp earlierMember
    have older : pass.number < track.started := tidy.below pass member
    rw [same, List.mem_singleton.mp latestMember] at older
    exact Nat.lt_irrefl _ older
  · intro pass member
    rcases List.mem_append.mp member with earlier | latest
    · exact Nat.lt_succ_of_lt (tidy.below pass earlier)
    · rw [List.mem_singleton.mp latest]
      exact Nat.lt_succ_self _
  · intro entered found
    rw [← Option.some.inj found, List.length_append]
    exact Entry.Tidy.enter bound

/-- A pass is taken out of those in flight, and an entry that counted it counts one less. -/
theorem release
    {track : Track} {pass : Pass}
    (tidy : track.Tidy) (member : pass ∈ track.passes) :
    (track.release pass).Tidy := by
  have count := length_filter_number tidy.distinct member
  refine ⟨tidy.distinct.sublist (List.filter_sublist.map _), ?_, ?_⟩
  · intro other kept
    exact tidy.below other (List.mem_filter.mp kept).1
  · intro left found
    obtain ⟨entry, tracked, rfl⟩ := Option.map_eq_some_iff.mp found
    have known := tidy.entry entry tracked
    rw [← count] at known
    exact known.leave

/-- Every action keeps the books in order. -/
theorem act
    {track : Track} (tidy : track.Tidy)
    (engine : Engine) (debounce now : Nat) (action : Action) :
    (track.act engine debounce now action).Tidy := by
  have step := track.becomes_act engine debounce now action
  generalize track.act engine debounce now action = after at step ⊢
  cases step with
  | adds | edits | tears => exact ⟨tidy.distinct, tidy.below, tidy.entry⟩
  | arms number => exact tidy.schedule debounce now number
  | forces number => exact tidy.start tidy.getD.running_le none engine _ _ _
  | closes => exact ⟨tidy.distinct, tidy.below, by simp [Track.close]⟩
  | rests => exact tidy
  | skips tracked =>
      refine ⟨tidy.distinct, tidy.below, ?_⟩
      intro left found
      rw [← Option.some.inj found]
      exact (tidy.entry _ tracked).skip
  | @starts entry _ tracked =>
      have bound : ({ entry with timer := none } : Entry).running ≤ track.passes.length :=
        (tidy.entry entry tracked).running_le
      exact tidy.start bound track.cached engine _ _ _
  | publishes member tracked =>
      have released := tidy.release member
      refine ⟨released.distinct, released.below, ?_⟩
      intro left found
      rw [← Option.some.inj found]
      exact (released.entry _ (congrArg (Option.map Entry.leave) tracked)).publish _
  | withholds member =>
      have released := tidy.release member
      exact ⟨released.distinct, released.below, released.entry⟩

/-- The end of a pass is an action like any other. -/
theorem complete
    {track : Track} {pass : Pass}
    (tidy : track.Tidy) (member : pass ∈ track.passes) :
    (track.complete pass).Tidy := by
  have ended := tidy.act ⟨.empty, .empty, {}⟩ 0 0 (.finish pass.number)
  rwa [Track.act, tidy.finish_eq_complete member] at ended

theorem forget {track : Track} (tidy : track.Tidy) : track.forget.Tidy :=
  ⟨tidy.distinct, tidy.below, by simp [Track.forget]⟩

end Tidy

end Track

/-- The books are in order after every run. -/
theorem Scheduler.tidy_run
    {scheduler : Scheduler} {id : BufferId}
    (tidy : (scheduler.track id).Tidy) (moves : List Move) :
    ((scheduler.run moves).track id).Tidy :=
  Scheduler.track_run scheduler id tidy
    (fun _ now action (_ : True) held => held.act _ _ now action)
    (fun _ held => held.forget) moves fun _ _ => trivial

end Heredoc
