import Heredoc.Proofs.Schedule.Tidy
import Mathlib.Data.List.Permutation

/-!
# Passes that outlive the closing of their buffer

A pass goes by the name of its buffer alone. When it ends after its buffer was closed, it is dropped
without a trace if the buffer is not tracked at that time; if the buffer was opened again, the pass
meets the new entry and is taken for one of its own. Main statement: the exact condition under
which such a pass is dropped.
-/

namespace Heredoc

/-- The report of a pass that was discarded. -/
def Pass.discarded (pass : Pass) (buffer : BufferId) : Report where
  time := pass.due
  buffer
  version := pass.version
  forced := pass.forced
  outcome := .discarded
  number := some pass.number

/-- Whether the move makes the scheduler track the buffer. -/
def Move.uses (id : BufferId) : Move → Bool
  | .on other (.notify _) | .on other (.force _) => other = id
  | _ => false

namespace Track

/-- Takes a pass out of those in flight and reports it as discarded. Nothing else changes: neither
the entry, nor what is cached, shown or published. -/
def drop (pass : Pass) (track : Track) : Track :=
  { track with
    passes := track.passes.filter (·.number ≠ pass.number)
    reports := track.reports ++ [pass.discarded track.id] }

/-- The result of a pass would be out of date for this entry. -/
def Stale (track : Track) (entry : Entry) (pass : Pass) : Prop :=
  (track.source pass.source).document.version ≠ pass.version ∨
    ∃ newer, entry.published = some newer ∧ pass.version < newer

variable {track : Track} {pass : Pass}

/-! ## The end of a pass -/

theorem stale_of_not_accepts
    {entry : Entry}
    (tracked : track.entry = some entry) (rejected : ¬ track.accepts pass = true) :
    track.Stale entry pass := by
  by_cases current : (track.source pass.source).document.version = pass.version
  · right
    by_contra noneNewer
    refine rejected (accepts_eq_true.mpr ⟨entry, tracked, current, ?_⟩)
    intro version published
    by_contra newer
    exact noneNewer ⟨version, published, Nat.lt_of_not_le newer⟩
  · exact .inl current

theorem not_accepts_of_stale
    {entry : Entry}
    (tracked : track.entry = some entry) (stale : track.Stale entry pass) :
    ¬ track.accepts pass = true := by
  intro accepted
  obtain ⟨known, alsoTracked, current, newest⟩ := accepts_eq_true.mp accepted
  obtain rfl : known = entry := Option.some.inj (alsoTracked.symm.trans tracked)
  rcases stale with moved | ⟨newer, published, later⟩
  · exact moved current
  · exact Nat.not_lt.mpr (newest newer published) later

/-- A pass is dropped without a trace if and only if its scan succeeded and an entry that it meets
counts no pass and would find its result out of date. -/
theorem complete_eq_drop_iff (tidy : track.Tidy) :
    track.complete pass = track.drop pass ↔
      (∃ diagnostics, pass.result = .ok diagnostics) ∧
        ∀ entry,
          track.entry = some entry → entry.running = 0 ∧ track.Stale entry pass := by
  rcases complete_cases track pass with
    ⟨entry, diagnostics, tracked, _, _, _, outcome, published⟩ | ⟨withheld, left⟩
  · have accepted := (outcomeOf_eq_published.mp outcome).2
    constructor
    · intro same
      have count := congrArg Track.publishes (published.symm.trans same)
      simp [drop] at count
    · rintro ⟨_, condition⟩
      exact absurd accepted (not_accepts_of_stale tracked (condition entry tracked).2)
  · rw [left]
    constructor
    · intro same
      have sameEntry : track.entry.map Entry.leave = track.entry :=
        congrArg Track.entry same
      have sameReports := congrArg Track.reports same
      have sameReport : track.ending pass = pass.discarded track.id := by
        simpa [drop] using sameReports
      have outcome : track.outcomeOf pass = .discarded := congrArg Report.outcome sameReport
      have succeeded : ∃ diagnostics, pass.result = .ok diagnostics := by
        unfold outcomeOf at outcome
        cases result : pass.result with
        | error missing =>
            rw [result] at outcome
            cases outcome
        | ok diagnostics => exact ⟨diagnostics, rfl⟩
      refine ⟨succeeded, ?_⟩
      intro entry tracked
      obtain ⟨diagnostics, found⟩ := succeeded
      have rejected : ¬ track.accepts pass = true := fun accepted =>
        withheld diagnostics (outcomeOf_eq_published.mpr ⟨found, accepted⟩)
      rw [tracked] at sameEntry
      have unchanged : entry.leave = entry := Option.some.inj sameEntry
      exact ⟨(tidy.entry entry tracked).leave_eq_self_iff.mp unchanged,
        stale_of_not_accepts tracked rejected⟩
    · rintro ⟨⟨diagnostics, found⟩, condition⟩
      have sameEntry : track.entry.map Entry.leave = track.entry := by
        cases tracked : track.entry with
        | none => rfl
        | some entry =>
            have noneRuns := (condition entry tracked).1
            rw [Option.map_some, (tidy.entry entry tracked).leave_eq_self_iff.mpr noneRuns]
      have rejected : track.accepts pass = false := by
        by_contra accepted
        exact withheld diagnostics
          (outcomeOf_eq_published.mpr ⟨found, Bool.not_eq_false _ ▸ accepted⟩)
      have outcome : track.outcomeOf pass = .discarded := by
        simp [outcomeOf, found, rejected]
      rw [sameEntry, drop, ending, outcome]
      rfl

/-! ## What stays -/

/-- A pass stays in flight until it ends. -/
theorem mem_passes_act
    {action : Action}
    (member : pass ∈ track.passes) (unfinished : action ≠ .finish pass.number)
    (engine : Engine) (debounce now : Nat) :
    pass ∈ (track.act engine debounce now action).passes := by
  have step := track.becomes_act engine debounce now action
  generalize track.act engine debounce now action = after at step ⊢
  cases step with
  | adds | edits | tears | arms | closes | rests | skips => exact member
  | forces | starts =>
      rw [start_eq]
      exact List.mem_append_left _ member
  | @publishes ended | @withholds ended =>
      have different : pass.number ≠ ended.number := by
        rintro sameNumber
        exact unfinished (by rw [sameNumber])
      exact List.mem_filter.mpr ⟨member, by simpa using different⟩

/-- A buffer that is not tracked stays so until it is used. -/
theorem untracked_act
    {action : Action}
    (untracked : track.entry = none)
    (unused : ∀ number, action ≠ .notify number ∧ action ≠ .force number)
    (engine : Engine) (debounce now : Nat) :
    (track.act engine debounce now action).entry = none := by
  have step := track.becomes_act engine debounce now action
  generalize track.act engine debounce now action = after at step ⊢
  cases step with
  | adds | edits | tears | rests => exact untracked
  | arms number => exact absurd rfl (unused number).1
  | forces number => exact absurd rfl (unused number).2
  | closes => rfl
  | skips tracked | starts tracked | publishes _ tracked =>
      rw [untracked] at tracked
      cases tracked
  | withholds =>
      rw [untracked]
      rfl

end Track

/-! ## Runs -/

namespace Scheduler

theorem mem_passes_run
    {scheduler : Scheduler} {id : BufferId} {pass : Pass} {moves : List Move}
    (member : pass ∈ (scheduler.track id).passes)
    (unfinished : .on id (.finish pass.number) ∉ moves) :
    pass ∈ ((scheduler.run moves).track id).passes := by
  let kept (track : Track) : Prop := pass ∈ track.passes
  let allowed (action : Action) : Prop := action ≠ .finish pass.number
  refine @track_run kept allowed scheduler id member ?_ (fun _ held => held) moves ?_
  · intro track now action other held
    exact Track.mem_passes_act held other _ _ now
  · rintro action actionMember rfl
    exact unfinished actionMember

theorem untracked_run
    {scheduler : Scheduler} {id : BufferId} {moves : List Move}
    (untracked : (scheduler.track id).entry = none)
    (unused : ∀ move ∈ moves, move.uses id = false) :
    ((scheduler.run moves).track id).entry = none := by
  let kept (track : Track) : Prop := track.entry = none
  let allowed (action : Action) : Prop :=
    ∀ number, action ≠ .notify number ∧ action ≠ .force number
  refine @track_run kept allowed scheduler id untracked ?_ (fun _ _ => rfl) moves ?_
  · intro track now action notUsed held
    exact Track.untracked_act held notUsed _ _ now
  · intro action member number
    have spared := unused _ member
    constructor
    · rintro rfl
      simp [Move.uses] at spared
    · rintro rfl
      simp [Move.uses] at spared

/-- In every run, for every pass that is in flight when its buffer is closed: when it ends, it is
dropped without a trace if and only if its scan succeeded and the entry that it meets, should the
buffer be tracked again, counts no pass and would find its result out of date. As long as the
buffer is not used after the closing, there is no such entry. -/
theorem finish_after_close
    (engine : Engine) (debounce : Nat) (before after : List Move) (id : BufferId)
    (pass : Pass) (track ended : Track)
    (inFlight : pass ∈ (((Scheduler.start engine debounce).run before).track id).passes)
    (unfinished : .on id (.finish pass.number) ∉ after)
    (reached :
      ((Scheduler.start engine debounce).run (before ++ .on id .close :: after)).track id = track)
    (finished :
      ((Scheduler.start engine debounce).run
        (before ++ .on id .close :: after ++ [.on id (.finish pass.number)])).track id = ended) :
    (ended = track.drop pass ↔
      (∃ diagnostics, pass.result = .ok diagnostics) ∧
        ∀ entry,
          track.entry = some entry → entry.running = 0 ∧ track.Stale entry pass) ∧
      ((∀ move ∈ after, move.uses id = false) → track.entry = none) := by
  have start : ((Scheduler.start engine debounce).track id).Tidy := Track.Tidy.empty id
  have tidy : track.Tidy := reached ▸ tidy_run start _
  rw [run_append, run_cons] at reached
  have closed :
      (((Scheduler.start engine debounce).run before).apply (.on id .close)).track id =
        (((Scheduler.start engine debounce).run before).track id).close := by
    rw [apply, track_act, if_pos rfl]
    rfl
  constructor
  · have stillThere : pass ∈ track.passes := by
      rw [← reached]
      refine mem_passes_run ?_ unfinished
      rw [closed]
      exact inFlight
    have ending : ended = track.complete pass := by
      rw [← finished, run_append, run_append, run_cons, run_cons, run_nil, apply, track_act,
        if_pos rfl, reached]
      exact tidy.finish_eq_complete stillThere
    rw [ending]
    exact Track.complete_eq_drop_iff tidy
  · intro unused
    rw [← reached]
    refine untracked_run ?_ unused
    rw [closed]
    rfl

/-- A pass begins. -/
def begin : List Move :=
  [.on "a.sh" (.add ⟨⟨"a.sh", 3, ["echo"]⟩, false⟩), .on "a.sh" (.notify 0), .wait 250,
    .on "a.sh" .fire]

/-- A pass that is in flight when its buffer is closed and opened again is not dropped. -/
theorem finish_after_close_reopened :
    (((Scheduler.start ⟨.empty, .empty, {}⟩ 250).run begin).track "a.sh").passes =
        [⟨0, 0, 3, false, 250, .ok []⟩] ∧
      ((Scheduler.start ⟨.empty, .empty, {}⟩ 250).run
          (begin ++ .on "a.sh" .close :: [.on "a.sh" (.notify 0)] ++
            [.on "a.sh" (.finish 0)])).track "a.sh" ≠
        (((Scheduler.start ⟨.empty, .empty, {}⟩ 250).run
          (begin ++ .on "a.sh" .close :: [.on "a.sh" (.notify 0)])).track "a.sh").drop
            ⟨0, 0, 3, false, 250, .ok []⟩ := by
  have inFlight :
      (((Scheduler.start ⟨.empty, .empty, {}⟩ 250).run begin).track "a.sh").passes =
        [⟨0, 0, 3, false, 250, .ok []⟩] := by
    cbv
  refine ⟨inFlight, ?_⟩
  intro dropped
  have condition :=
    (finish_after_close ⟨.empty, .empty, {}⟩ 250 begin [.on "a.sh" (.notify 0)] "a.sh"
      ⟨0, 0, 3, false, 250, .ok []⟩ _ _ (inFlight ▸ List.mem_singleton_self _) (by decide)
      rfl rfl).1.mp dropped
  obtain ⟨_, moved | ⟨newer, published, _⟩⟩ :=
    condition.2 ⟨.pending, 1, some ⟨500, 1, 0⟩, 0, none⟩ (by decide)
  · exact moved rfl
  · cases published

end Scheduler

end Heredoc
