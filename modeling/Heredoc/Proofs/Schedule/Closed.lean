import Heredoc.Proofs.Schedule.Closing
import Heredoc.Proofs.Schedule.Skipping
import Mathlib.Data.List.Infix

/-!
# Closed buffers

A buffer that was closed stays so until it is used again: nothing is known of it, nothing is shown
for it, and no timer of it fires. What is left of it are the passes that were in flight, which end
one by one, in any order and at any time, and of which nothing remains but a report each.
-/

namespace Heredoc

/-- The report of a pass that ends while its buffer is not tracked. -/
def Pass.late (pass : Pass) (buffer : BufferId) : Report where
  time := pass.due
  buffer
  version := pass.version
  forced := pass.forced
  outcome :=
    match pass.result with
    | .ok _ => .discarded
    | .error missing => .failed missing.message
  number := some pass.number

theorem Move.ne_of_unused
    {id : BufferId} {action : Action} (unused : (Move.on id action).uses id = false) :
    ∀ number, action ≠ .notify number ∧ action ≠ .force number := by
  intro number
  constructor
  · rintro rfl
    simp [Move.uses] at unused
  · rintro rfl
    simp [Move.uses] at unused

namespace Track

theorem perm_filter_number
    {passes : List Pass} {pass : Pass}
    (distinct : (passes.map Pass.number).Nodup) (member : pass ∈ passes) :
    (pass :: passes.filter (·.number ≠ pass.number)).Perm passes := by
  induction passes with
  | nil => cases member
  | cons first rest inductionHypothesis =>
      rcases List.mem_cons.mp member with rfl | inRest
      · rw [filter_number_cons distinct]
      · rw [List.map_cons, List.nodup_cons] at distinct
        obtain ⟨firstAbsent, restDistinct⟩ := distinct
        have different : first.number ≠ pass.number := by
          intro same
          exact firstAbsent (same ▸ List.mem_map_of_mem inRest)
        rw [List.filter_cons_of_pos (by simpa using different)]
        exact (List.Perm.swap first pass _).trans
          ((inductionHypothesis restDistinct inRest).cons first)

theorem id_act
    (engine : Engine) (debounce now : Nat) (track : Track) (action : Action) :
    (track.act engine debounce now action).id = track.id := by
  have step := track.becomes_act engine debounce now action
  generalize track.act engine debounce now action = after at step ⊢
  cases step with
  | adds | edits | tears | arms | closes | rests | skips | publishes | withholds => rfl
  | forces | starts => rw [start_eq]

/-- The buffer was closed when these passes were in flight and these reports had been made. Each of
the passes is still in flight or has ended with its late report, and nothing else happened. -/
structure Closed (id : BufferId) (flying : List Pass) (heard : List Report) (track : Track) :
    Prop where
  named : track.id = id
  tidy : track.Tidy
  untracked : track.entry = none
  unchecked : track.cached = none
  hidden : track.shown = none
  ended :
    ∃ made,
      track.reports = heard ++ made ∧
        (made ++ track.passes.map (·.late id)).Perm (flying.map (·.late id))

variable {id : BufferId} {flying : List Pass} {heard : List Report} {track : Track}

theorem closed_close (named : track.id = id) (tidy : track.Tidy) :
    track.close.Closed id track.passes track.reports :=
  ⟨named, ⟨tidy.distinct, tidy.below, by simp [close]⟩, rfl, rfl, rfl,
    [], (List.append_nil _).symm, .refl _⟩

/-- A pass that ends while its buffer is not tracked leaves its late report. -/
theorem ending_of_untracked
    (untracked : track.entry = none) (pass : Pass) :
    track.ending pass = pass.late track.id := by
  have rejected : track.accepts pass = false := by
    rw [accepts, untracked]
  unfold ending Pass.late outcomeOf
  cases pass.result <;> simp [rejected]

namespace Closed

theorem act
    {action : Action}
    (closed : track.Closed id flying heard)
    (unused : ∀ number, action ≠ .notify number ∧ action ≠ .force number)
    (engine : Engine) (debounce now : Nat) :
    (track.act engine debounce now action).Closed id flying heard := by
  have tidy := closed.tidy.act engine debounce now action
  have step := track.becomes_act engine debounce now action
  generalize track.act engine debounce now action = after at tidy step ⊢
  cases step with
  | adds | edits | tears =>
      exact ⟨closed.named, tidy, closed.untracked, closed.unchecked, closed.hidden, closed.ended⟩
  | arms number => exact absurd rfl (unused number).1
  | forces number => exact absurd rfl (unused number).2
  | closes => exact ⟨closed.named, tidy, rfl, rfl, rfl, closed.ended⟩
  | rests => exact closed
  | skips tracked | starts tracked | publishes _ tracked =>
      rw [closed.untracked] at tracked
      cases tracked
  | @withholds pass member =>
      obtain ⟨made, reports, balance⟩ := closed.ended
      have untracked : track.entry.map Entry.leave = none := by
        rw [closed.untracked]
        rfl
      refine ⟨closed.named, tidy, untracked, closed.unchecked, closed.hidden,
        made ++ [pass.late id], ?_, ?_⟩
      · simp only [ending_of_untracked closed.untracked, reports, closed.named, List.append_assoc]
      · -- The pass goes over from those in flight to those that were reported.
        have moved := (perm_filter_number closed.tidy.distinct member).map (·.late id)
        rw [List.append_assoc]
        exact (moved.append_left made).trans balance

theorem forget (closed : track.Closed id flying heard) :
    track.forget.Closed id flying heard :=
  ⟨closed.named, closed.tidy.forget, rfl, closed.unchecked, closed.hidden, closed.ended⟩

end Closed

end Track

/-! ## Runs -/

namespace Scheduler

/-- Nothing comes between the start of a pass of the buffer whose scan fails and its end: the scan is
part of the step that starts the pass, and when it fails there is no validator to wait for. -/
def Prompt (scheduler : Scheduler) (id : BufferId) (moves : List Move) : Prop :=
  ∀ past move, past ++ [move] <+: moves →
    ∀ pass ∈ ((scheduler.run past).track id).passes,
      ∀ missing, pass.result = .error missing → move = .on id (.finish pass.number)

theorem id_run (engine : Engine) (debounce : Nat) (moves : List Move) (id : BufferId) :
    (((start engine debounce).run moves).track id).id = id := by
  refine @track_run (fun track => track.id = id) (fun _ => True) _ id rfl ?_ ?_ moves
    fun _ _ => trivial
  · intro track now action _ named
    rw [Track.id_act, named]
  · exact fun _ named => named

/-- A closed buffer stays closed until it is used. -/
theorem closed_run
    {scheduler : Scheduler} {id : BufferId} {flying : List Pass} {heard : List Report}
    {moves : List Move}
    (closed : (scheduler.track id).Closed id flying heard)
    (unused : ∀ move ∈ moves, move.uses id = false) :
    ((scheduler.run moves).track id).Closed id flying heard := by
  let allowed (action : Action) : Prop :=
    ∀ number, action ≠ .notify number ∧ action ≠ .force number
  refine @track_run (·.Closed id flying heard) allowed scheduler id closed ?_
    (fun _ held => held.forget) moves ?_
  · intro track now action notUsed held
    exact held.act notUsed _ _ now
  · intro action member
    exact Move.ne_of_unused (unused _ member)

/-- A pass that is in flight at a move other than its end made its scan without failing. -/
theorem Prompt.exists_ok
    {scheduler : Scheduler} {past later : List Move} {move : Move} {id : BufferId} {pass : Pass}
    (prompt : scheduler.Prompt id (past ++ move :: later))
    (inFlight : pass ∈ ((scheduler.run past).track id).passes)
    (unended : move ≠ .on id (.finish pass.number)) :
    ∃ diagnostics, pass.result = .ok diagnostics := by
  have initial : past ++ [move] <+: past ++ move :: later := by simp
  cases result : pass.result with
  | ok diagnostics => exact ⟨diagnostics, rfl⟩
  | error missing =>
      exact absurd (prompt past move initial pass inFlight missing result) unended

/-- In every run, from the closing of a buffer until it is next used: it is not tracked, nothing is
cached or shown for it, and no natural pass of it starts. The passes that were in flight, and no
others, end in this time, in any order; each is reported once, as discarded, unless its scan had
failed; and as nothing comes between a failed scan and the end of its pass, all are discarded. -/
theorem closed_until_used
    (engine : Engine) (debounce : Nat) (before after : List Move) (id : BufferId)
    (flying : Track) (scheduler : Scheduler)
    (closing : ((Scheduler.start engine debounce).run before).track id = flying)
    (unused : ∀ move ∈ after, move.uses id = false)
    (reached :
      (Scheduler.start engine debounce).run (before ++ .on id .close :: after) = scheduler) :
    scheduler.phase? id = none ∧
      (scheduler.track id).cached = none ∧
      (scheduler.track id).shown = none ∧
      (∀ move entry timer, ¬ scheduler.Fires id move entry timer) ∧
      ∃ made,
        (scheduler.track id).reports = flying.reports ++ made ∧
        (made ++ (scheduler.track id).passes.map (·.late id)).Perm
          (flying.passes.map (·.late id)) ∧
        ((Scheduler.start engine debounce).Prompt id (before ++ .on id .close :: after) →
          ∀ report ∈ made, report.outcome = .discarded) := by
  have start : ((Scheduler.start engine debounce).track id).Tidy := Track.Tidy.empty id
  have named : flying.id = id := closing ▸ id_run engine debounce before id
  have tidy : flying.Tidy := closing ▸ tidy_run start before
  have atClose :
      (((Scheduler.start engine debounce).run (before ++ [.on id .close])).track id).Closed
        id flying.passes flying.reports := by
    rw [run_append, run_cons, run_nil, apply, track_act, if_pos rfl, closing]
    exact Track.closed_close named tidy
  have closed : (scheduler.track id).Closed id flying.passes flying.reports := by
    rw [← reached, List.append_cons, run_append]
    exact closed_run atClose unused
  obtain ⟨made, reports, balance⟩ := closed.ended
  refine ⟨?_, closed.unchecked, closed.hidden, ?_, made, reports, balance, ?_⟩
  · rw [phase?, closed.untracked, Option.map_none]
  · rintro move entry timer ⟨_, armed, _⟩
    obtain ⟨tracked, _⟩ := Track.armed?_eq_some.mp armed
    rw [closed.untracked] at tracked
    cases tracked
  · intro prompt report member
    obtain ⟨pass, inFlight, rfl⟩ :=
      List.mem_map.mp (balance.mem_iff.mp (List.mem_append_left _ member))
    rw [← closing] at inFlight
    obtain ⟨diagnostics, result⟩ := prompt.exists_ok inFlight (by simp)
    simp only [Pass.late, result]

/-- A natural and a forced pass are in flight, and a timer is armed. -/
def busy : List Move :=
  [.on "a.sh" (.add ⟨⟨"a.sh", 3, ["echo"]⟩, false⟩), .on "a.sh" (.notify 0), .wait 250,
    .on "a.sh" .fire, .on "a.sh" (.force 0), .on "a.sh" (.notify 0)]

/-- The later of two passes ends after the closing, and the timer falls due. -/
theorem closed_until_used_busy :
    ((Scheduler.start ⟨.empty, .empty, {}⟩ 250).run
        (busy ++ .on "a.sh" .close ::
          [.on "a.sh" (.finish 1), .wait 250, .on "a.sh" .fire])).phase? "a.sh" = none ∧
      ∃ report,
        (((Scheduler.start ⟨.empty, .empty, {}⟩ 250).run
          (busy ++ .on "a.sh" .close ::
            [.on "a.sh" (.finish 1), .wait 250, .on "a.sh" .fire])).track "a.sh").reports =
          [report] ∧
        report.outcome = .discarded := by
  let run := busy ++ .on "a.sh" .close :: [.on "a.sh" (.finish 1), .wait 250, .on "a.sh" .fire]
  have noneFailed :
      ∀ past ∈ run.inits,
        ∀ pass ∈ (((Scheduler.start ⟨.empty, .empty, {}⟩ 250).run past).track "a.sh").passes,
          pass.result.isOk = true := by
    decide +kernel
  have prompt : (Scheduler.start ⟨.empty, .empty, {}⟩ 250).Prompt "a.sh" run := by
    intro past move initial pass member missing failed
    have scanned :=
      noneFailed past ((List.mem_inits _ _).mpr ((List.prefix_append _ _).trans initial)) pass member
    rw [failed] at scanned
    cases scanned
  obtain ⟨untracked, _, _, _, made, reports, _, discarded⟩ :=
    closed_until_used ⟨.empty, .empty, {}⟩ 250 busy
      [.on "a.sh" (.finish 1), .wait 250, .on "a.sh" .fire] "a.sh" _ _ rfl (by decide) rfl
  refine ⟨untracked, ?_⟩
  have heard :
      (((Scheduler.start ⟨.empty, .empty, {}⟩ 250).run busy).track "a.sh").reports = [] := by
    decide +kernel
  have one :
      (((Scheduler.start ⟨.empty, .empty, {}⟩ 250).run run).track "a.sh").reports.length = 1 := by
    decide +kernel
  rw [heard, List.nil_append] at reports
  obtain ⟨report, only⟩ := List.length_eq_one_iff.mp one
  refine ⟨report, only, discarded prompt report ?_⟩
  rw [← reports, only]
  exact List.mem_singleton_self report

end Scheduler

end Heredoc
