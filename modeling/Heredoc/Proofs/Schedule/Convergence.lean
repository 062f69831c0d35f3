import Heredoc.Proofs.Schedule.Serving

/-!
# Convergence

No edit is lost. While a buffer is tracked and its last edit was announced, the content of its
document is either shown and cached, or being read by a pass, or a timer will see to it. Hence a
tracked buffer without a timer and without a pass shows what its document calls for.
-/

namespace Heredoc

/-- Whether the action makes the snapshots of a source claim a line too many. -/
def Action.tears : Action → Bool
  | .tear _ torn => torn
  | .add _ | .edit .. | .notify _ | .force _ | .close | .fire | .finish _ => false

/-- Whether the move makes the snapshots of a source claim a line too many. -/
def Move.tears : Move → Bool
  | .on _ action => action.tears
  | .wait _ | .shutdown => false

/-- Every edit of the buffer was followed by an event other than its closing. -/
def Announced (id : BufferId) (moves : List Move) : Prop :=
  ∀ number edit after,
    Move.on id (.edit number edit) :: after <:+ moves →
      ∃ other, Move.on id (.notify other) ∈ after

theorem Announced.of_append
    {id : BufferId} {moves : List Move} {move : Move}
    (announced : Announced id (moves ++ [move]))
    (silent : ∀ other, move ≠ .on id (.notify other)) :
    Announced id moves := by
  rintro number edit after ⟨before, rfl⟩
  obtain ⟨other, member⟩ :=
    announced number edit (after ++ [move]) ⟨before, by simp⟩
  rcases List.mem_append.mp member with earlier | last
  · exact ⟨other, earlier⟩
  · exact absurd (List.mem_singleton.mp last).symm (silent other)

theorem Announced.not_append_edit
    {id : BufferId} {moves : List Move} {number : Nat} {edit : Edit} :
    ¬ Announced id (moves ++ [.on id (.edit number edit)]) := by
  intro announced
  obtain ⟨other, member⟩ := announced number edit [] (List.suffix_append moves _)
  cases member

theorem Source.exists_diagnose_view
    {source : Source} (whole : source.torn = false) (engine : Engine) :
    ∃ diagnostics, engine.diagnose source.view = .ok diagnostics := by
  have honest : source.view = source.document.view := by
    rw [Source.view, if_neg (by simp [whole])]
  rw [honest]
  exact engine.exists_diagnose_view source.document

namespace Track

/-- While the buffer is tracked, the content of the source is cached, being read, or to be read
when a timer fires. -/
def Covered (number : Nat) (track : Track) : Prop :=
  ∀ entry,
    track.entry = some entry →
      entry.timer.isSome = true ∨
        (∃ pass ∈ track.passes,
          pass.source = number ∧
            pass.version = (track.source number).document.version ∧
              ∃ diagnostics, pass.result = .ok diagnostics) ∨
          track.cached = some (track.source number).document.version

variable {engine : Engine} {number : Nat} {track : Track}

namespace Covered

theorem schedule (debounce now source : Nat) :
    (track.schedule debounce now source).Covered number := by
  intro entry tracked
  left
  rw [← Option.some.inj tracked]
  rfl

/-- A pass that starts reads the content as it is. -/
theorem start
    (whole : (track.source number).torn = false) (now : Nat) (forced : Bool) :
    (Track.start engine now forced number track).Covered number := by
  intro entry _
  right
  left
  obtain ⟨diagnostics, found⟩ := Source.exists_diagnose_view whole engine
  rw [start_eq]
  exact ⟨begun engine now forced number track, by simp, rfl, rfl, diagnostics, found⟩

/-- A pass that ends without a publication was not the one that reads the content. -/
theorem of_withheld
    {pass : Pass}
    (covered : track.Covered number)
    (tidy : track.Tidy) (serves : track.Serves engine number)
    (member : pass ∈ track.passes)
    (withheld : ∀ diagnostics, track.outcomeOf pass ≠ .published diagnostics) :
    (track.release pass).Covered number := by
  intro left leftTracked
  obtain ⟨entry, tracked, rfl⟩ := Option.map_eq_some_iff.mp leftTracked
  rcases covered entry tracked with armed | ⟨other, otherMember, read⟩ | checked
  · exact .inl armed
  · -- The pass that reads the content would publish.
    have different : other ≠ pass := by
      rintro rfl
      obtain ⟨source, version, diagnostics, found⟩ := read
      have accepted : track.accepts other = true :=
        accepts_eq_true.mpr ⟨entry, tracked, by rw [source, version], fun newest noted =>
          version ▸ serves.published entry newest tracked noted⟩
      exact withheld diagnostics (outcomeOf_eq_published.mpr ⟨found, accepted⟩)
    exact .inr (.inl ⟨other, tidy.mem_filter_number member otherMember different, read⟩)
  · exact .inr (.inr checked)

theorem of_untracked (untracked : track.entry = none) : track.Covered number := by
  intro entry tracked
  rw [untracked] at tracked
  cases tracked

end Covered

/-- A tracked buffer that is covered and at rest shows and caches its content. -/
theorem converged_of_covered
    {entry : Entry}
    (covered : track.Covered number)
    (tidy : track.Tidy) (serves : track.Serves engine number)
    (tracked : track.entry = some entry)
    (unarmed : entry.timer = none) (still : track.passes = []) :
    entry.phase = .idle ∧
      (∃ diagnostics,
        engine.diagnose (track.source number).document.view = .ok diagnostics ∧
          track.shown = some diagnostics) ∧
        track.cached = some (track.source number).document.version := by
  have checked : track.cached = some (track.source number).document.version := by
    rcases covered entry tracked with armed | ⟨pass, member, _⟩ | checked
    · rw [unarmed] at armed
      cases armed
    · rw [still] at member
      cases member
    · exact checked
  have idle : entry.phase = .idle := by
    have known := tidy.entry entry tracked
    rw [still] at known
    have noneRuns : ¬ 0 < entry.running := Nat.not_lt.mpr known.running_le
    rw [known.phase_eq, Entry.rightPhase, if_neg noneRuns, unarmed]
    rfl
  obtain ⟨diagnostics, shown, diagnosed⟩ := (serves.cached _ checked).2 rfl
  exact ⟨idle, ⟨diagnostics, diagnosed, shown⟩, checked⟩

/-- All that is needed of a track to know that no edit is lost; `announced` tells whether the last
edit was followed by an event. -/
structure Followed (engine : Engine) (number : Nat) (announced : Prop) (track : Track) : Prop where
  tidy : track.Tidy
  serves : track.Serves engine number
  whole : (track.source number).torn = false
  covered : announced → track.Covered number

/-- An action that tears no snapshot leaves the served source whole. -/
theorem torn_act
    {action : Action}
    (whole : (track.source number).torn = false)
    (own : action.serves number = true) (gentle : action.tears = false)
    (debounce now : Nat) :
    ((track.act engine debounce now action).source number).torn = false := by
  rcases source_act_cases own engine debounce now track with
    same | ⟨edit, edited⟩ | ⟨torn, rfl, changed⟩
  · rw [same]
    exact whole
  · rw [edited]
    exact whole
  · rw [changed]
    exact gentle

/-- An event covers the content, and no other action but an edit uncovers it. -/
theorem Followed.act
    {announced later : Prop} {action : Action}
    (followed : track.Followed engine number announced)
    (own : action.serves number = true) (gentle : action.tears = false)
    (carried :
      later →
        (∃ other, action = .notify other) ∨
          announced ∧ ∀ other edit, action ≠ .edit other edit)
    (debounce now : Nat) :
    (track.act engine debounce now action).Followed engine number later := by
  have whole := followed.whole
  refine ⟨followed.tidy.act engine debounce now action, followed.serves.act own debounce now,
    torn_act whole own gentle debounce now, ?_⟩
  intro holds
  rcases carried holds with ⟨other, rfl⟩ | ⟨wasAnnounced, noEdit⟩
  · exact Covered.schedule debounce now other
  · have covered := followed.covered wasAnnounced
    have step := track.becomes_act engine debounce now action
    generalize track.act engine debounce now action = after at step ⊢
    cases step with
    | adds => cases own
    | edits other edit => exact absurd rfl (noEdit other edit)
    | tears other torn =>
        obtain rfl : other = number := of_decide_eq_true own
        rcases track.source_modifySource_self other ({ · with torn }) with changed | same
        · intro entry tracked
          rw [changed]
          exact covered entry tracked
        · intro entry tracked
          rw [same]
          exact covered entry tracked
    | arms other => exact Covered.schedule debounce now other
    | forces other =>
        obtain rfl : other = number := of_decide_eq_true own
        apply Covered.start
        exact whole
    | closes => exact Covered.of_untracked rfl
    | rests => exact covered
    | skips tracked armed _ checked =>
        rw [followed.serves.timer _ _ tracked armed] at checked
        exact fun _ _ => .inr (.inr checked)
    | starts tracked armed =>
        rw [followed.serves.timer _ _ tracked armed]
        apply Covered.start
        exact whole
    | publishes member _ found current =>
        -- The pass has read the content, and now it is cached.
        have version := (followed.serves.diagnose_of_published member current found).1
        exact fun _ _ => .inr (.inr (congrArg some version))
    | withholds member withheld =>
        exact covered.of_withheld followed.tidy followed.serves member withheld

theorem Followed.forget
    {announced : Prop} (followed : track.Followed engine number announced) (later : Prop) :
    track.forget.Followed engine number later :=
  ⟨followed.tidy.forget, followed.serves.forget, followed.whole,
    fun _ => Covered.of_untracked rfl⟩

end Track

/-! ## Runs -/

namespace Scheduler

variable (engine : Engine) (debounce : Nat) (documents : List Document)

theorem followed_run
    (id : BufferId) {moves : List Move}
    (sole : ∀ move ∈ moves, move.serves 0 = true)
    (gentle : ∀ move ∈ moves, move.tears = false) :
    (((hosting engine debounce documents).run moves).track id).Followed
      engine 0 (Announced id moves) := by
  have quiet := quiet_hosting engine debounce documents id
  have start :
      ((hosting engine debounce documents).track id).Followed engine 0 (Announced id []) :=
    ⟨tidy_hosting engine debounce documents id [],
      .of_quiet quiet.untracked quiet.still quiet.unchecked 0, quiet.whole 0,
      fun _ => .of_untracked quiet.untracked⟩
  let kept (past : List Move) (track : Track) : Prop :=
    track.Followed engine 0 (Announced id past)
  let allowed (action : Action) : Prop := action.serves 0 = true ∧ action.tears = false
  refine @track_run_history kept allowed _ id start ?_ ?_ ?_ moves ?_
  · rintro past track now action ⟨own, spared⟩ followed
    rw [engine_hosting]
    refine followed.act own spared ?_ _ now
    intro announced
    by_cases event : ∃ other, action = .notify other
    · exact .inl event
    · refine .inr ⟨announced.of_append ?_, ?_⟩
      · rintro other same
        injection same with _ sameAction
        exact event ⟨other, sameAction⟩
      · rintro other edit rfl
        exact Announced.not_append_edit announced
  · intro past track followed
    exact followed.forget _
  · intro past track move elsewhere _ followed
    exact ⟨followed.tidy, followed.serves, followed.whole, fun announced =>
      followed.covered (announced.of_append fun other => elsewhere (.notify other))⟩
  · intro action member
    exact ⟨sole (.on id action) member, gentle (.on id action) member⟩

/-- In every run over one document for each buffer, with whole snapshots: a tracked buffer whose
edits were all announced, without a timer and without a pass in flight, is idle, shows what the
engine finds in its document, and has its version cached. -/
theorem converged_at_rest
    (moves : List Move) (id : BufferId) (track : Track) (entry : Entry)
    (sole : ∀ move ∈ moves, move.serves 0 = true)
    (gentle : ∀ move ∈ moves, move.tears = false)
    (announced : Announced id moves)
    (reached : ((hosting engine debounce documents).run moves).track id = track)
    (tracked : track.entry = some entry)
    (unarmed : entry.timer = none)
    (still : track.passes = []) :
    entry.phase = .idle ∧
      (∃ diagnostics,
        engine.diagnose (track.source 0).document.view = .ok diagnostics ∧
          track.shown = some diagnostics) ∧
        track.cached = some (track.source 0).document.version := by
  have followed := followed_run engine debounce documents id sole gentle
  rw [reached] at followed
  exact Track.converged_of_covered (followed.covered announced) followed.tidy followed.serves
    tracked unarmed still

/-- A buffer is closed and opened again while a pass is in flight, then edited while it is read by
a second pass. -/
def reopened : List Move :=
  [.on "a.sh" (.notify 0), .wait 250, .on "a.sh" .fire, .on "a.sh" .close,
    .on "a.sh" (.force 0), .on "a.sh" (.finish 0), .on "a.sh" (.edit 0 (.setText "echo done")),
    .on "a.sh" (.notify 0), .on "a.sh" (.finish 1), .wait 250, .on "a.sh" .fire,
    .on "a.sh" (.finish 2)]

theorem converged_at_rest_reopened :
    Announced "a.sh" reopened ∧
      (((hosting ⟨.empty, .empty, {}⟩ 250 [⟨"a.sh", 3, ["echo"]⟩]).run
        reopened).track "a.sh").cached = some 4 := by
  have announced : Announced "a.sh" reopened := by
    intro number edit after suffix
    simp [reopened, List.suffix_cons_iff] at suffix
    exact ⟨0, by simp [suffix]⟩
  refine ⟨announced, ?_⟩
  exact (converged_at_rest ⟨.empty, .empty, {}⟩ 250 [⟨"a.sh", 3, ["echo"]⟩] reopened "a.sh" _
    ⟨.idle, 1, none, 0, some 4⟩ (by decide) (by decide) announced rfl (by decide) rfl rfl).2.2

end Scheduler

end Heredoc
