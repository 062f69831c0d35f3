import Heredoc.Proofs.Schedule.Serving

/-!
# Publications

What is published was found in the document as it is at that moment, not only as it was when the
pass began, and the published versions of a buffer never go back, not even across a closing or a
shutdown.
-/

namespace Heredoc

/-- What was handed over to be shown, and the version it was found in. -/
structure Publication where
  version : Nat
  diagnostics : List Diagnostic
deriving DecidableEq, Repr

/-- What a report says was published. -/
def Report.publication? (report : Report) : Option Publication :=
  match report.outcome with
  | .published diagnostics => some ⟨report.version, diagnostics⟩
  | _ => none

theorem Report.publication?_eq_none {report : Report} :
    report.publication? = none ↔ ∀ diagnostics, report.outcome ≠ .published diagnostics := by
  unfold publication?
  cases report.outcome <;> simp

namespace Track

/-- All that was published for the buffer, in order. -/
def publications (track : Track) : List Publication :=
  track.reports.filterMap Report.publication?

/-- From one state of a buffer to the next, what was published is what is shown now and what the
engine finds in the document of this source now. -/
def PublishesCurrent (engine : Engine) (number : Nat) (before after : Track) : Prop :=
  ∃ made : List Publication,
    after.publications = before.publications ++ made ∧
      after.publishes = before.publishes + made.length ∧
        ∀ publication ∈ made,
          after.shown = some publication.diagnostics ∧
            publication.version = (after.source number).document.version ∧
              engine.diagnose (after.source number).document.view =
                .ok publication.diagnostics

variable {engine : Engine} {number : Nat} {track : Track}

theorem PublishesCurrent.nothing
    {after : Track}
    (sameReports : after.publications = track.publications)
    (sameCount : after.publishes = track.publishes) :
    track.PublishesCurrent engine number after :=
  ⟨[], by simp [sameReports], by simp [sameCount], by simp⟩

/-! ## One action -/

theorem publications_of_reports
    {before after : Track} {report : Report}
    (announced : after.reports = before.reports ++ [report]) :
    after.publications = before.publications ++ report.publication?.toList := by
  rw [publications, announced, List.filterMap_append, publications]
  cases made : report.publication? with
  | none => simp [made]
  | some publication => simp [made]

/-- A report of anything else adds no publication. -/
theorem publications_of_silent
    {before after : Track} {report : Report}
    (announced : after.reports = before.reports ++ [report])
    (silent : report.publication? = none) :
    after.publications = before.publications := by
  rw [publications_of_reports announced, silent, Option.toList_none, List.append_nil]

/-- Every action on the served source publishes only what is current. -/
theorem publishesCurrent_act
    (serves : track.Serves engine number) (debounce now : Nat) (action : Action) :
    track.PublishesCurrent engine number (track.act engine debounce now action) := by
  have step := track.becomes_act engine debounce now action
  generalize track.act engine debounce now action = after at step ⊢
  cases step with
  | adds | edits | tears | arms | closes | rests => exact .nothing rfl rfl
  | forces | starts =>
      rw [start_eq]
      exact .nothing rfl rfl
  | @skips _ _ report _ _ _ _ unchanged =>
      have silent : report.publication? = none :=
        Report.publication?_eq_none.mpr (by simp [unchanged])
      exact .nothing (publications_of_silent rfl silent) rfl
  | @publishes pass _ diagnostics member _ found current _ outcome =>
      obtain ⟨version, diagnosed⟩ := serves.diagnose_of_published member current found
      have announced :
          (track.ending pass).publication? = some ⟨pass.version, diagnostics⟩ := by
        rw [Report.publication?, ending, outcome]
      refine ⟨[⟨pass.version, diagnostics⟩], ?_, rfl, ?_⟩
      · simp [publications, announced]
      · intro publication made
        rw [List.mem_singleton.mp made]
        exact ⟨rfl, version, diagnosed⟩
  | withholds _ withheld =>
      exact .nothing (publications_of_silent rfl (Report.publication?_eq_none.mpr withheld)) rfl

/-- No action on the served source takes its document back. -/
theorem precedes_act
    {action : Action}
    (own : action.serves number = true) (engine : Engine) (debounce now : Nat) :
    (track.source number).document.Precedes
      ((track.act engine debounce now action).source number).document := by
  rcases source_act_cases own engine debounce now track with
    same | ⟨edit, edited⟩ | ⟨torn, _, changed⟩
  · rw [same]
    exact .refl _
  · rw [edited]
    exact edit.precedes_apply _
  · rw [changed]
    exact .refl _

/-- The published versions never went back, and none is later than the document. -/
structure Logged (number : Nat) (track : Track) : Prop where
  ordered : (track.publications.map Publication.version).Pairwise (· ≤ ·)
  bounded :
    ∀ publication ∈ track.publications,
      publication.version ≤ (track.source number).document.version

theorem Logged.act
    {action : Action}
    (logged : track.Logged number)
    (serves : track.Serves engine number) (own : action.serves number = true)
    (debounce now : Nat) :
    (track.act engine debounce now action).Logged number := by
  obtain ⟨made, sequel, _, current⟩ := publishesCurrent_act serves debounce now action
  have later := track.precedes_act own engine debounce now
  have earlier :
      ∀ publication ∈ track.publications,
        publication.version ≤
          ((track.act engine debounce now action).source number).document.version :=
    fun publication member => Nat.le_trans (logged.bounded publication member) later.1
  refine ⟨?_, ?_⟩
  · rw [sequel, List.map_append, List.pairwise_append]
    refine ⟨logged.ordered, ?_, ?_⟩
    · -- All that one action publishes has the version of the document.
      refine List.pairwise_of_forall_mem_list ?_
      intro version member other otherMember
      obtain ⟨publication, madeNow, rfl⟩ := List.mem_map.mp member
      obtain ⟨otherPublication, otherNow, rfl⟩ := List.mem_map.mp otherMember
      exact Nat.le_of_eq ((current publication madeNow).2.1.trans
        (current otherPublication otherNow).2.1.symm)
    · intro version member other otherMember
      obtain ⟨publication, past, rfl⟩ := List.mem_map.mp member
      obtain ⟨otherPublication, madeNow, rfl⟩ := List.mem_map.mp otherMember
      rw [(current otherPublication madeNow).2.1]
      exact earlier publication past
  · intro publication member
    rw [sequel] at member
    rcases List.mem_append.mp member with past | madeNow
    · exact earlier publication past
    · exact Nat.le_of_eq (current publication madeNow).2.1

end Track

/-! ## Runs -/

namespace Scheduler

theorem publishesCurrent_apply
    {scheduler : Scheduler} {id : BufferId} {number : Nat}
    (serves : (scheduler.track id).Serves scheduler.engine number) (move : Move) :
    Track.PublishesCurrent scheduler.engine number
      (scheduler.track id) ((scheduler.apply move).track id) := by
  cases move with
  | on other action =>
      rw [apply, track_act]
      by_cases same : other = id
      · rw [if_pos same]
        exact Track.publishesCurrent_act serves _ _ action
      · rw [if_neg same]
        exact .nothing rfl rfl
  | wait milliseconds => exact .nothing rfl rfl
  | shutdown =>
      rw [track_shutdown]
      exact .nothing rfl rfl

theorem logged_run
    (engine : Engine) (debounce : Nat) (documents : List Document)
    (id : BufferId) {moves : List Move}
    (sole : ∀ move ∈ moves, move.serves 0 = true) :
    (((hosting engine debounce documents).run moves).track id).Logged 0 := by
  have quiet := quiet_hosting engine debounce documents id
  have silent : ((hosting engine debounce documents).track id).publications = [] := by
    rw [Track.publications, quiet.unheard]
    rfl
  have start :
      ((hosting engine debounce documents).track id).Serves engine 0 ∧
        ((hosting engine debounce documents).track id).Logged 0 :=
    ⟨.of_quiet quiet.untracked quiet.still quiet.unchecked 0,
      by simp [silent], by simp [silent]⟩
  let kept (track : Track) : Prop := track.Serves engine 0 ∧ track.Logged 0
  refine (@track_run kept _ _ id start ?_ ?_ moves
    fun action member => sole (.on id action) member).2
  · rintro track now action own ⟨served, logged⟩
    rw [engine_hosting]
    exact ⟨served.act own _ now, logged.act served own _ now⟩
  · rintro track ⟨served, logged⟩
    exact ⟨served.forget, logged.ordered, logged.bounded⟩

/-- In every run over one document for each buffer, each move publishes for each buffer only what
the engine finds in its document at that moment, and the versions published for a buffer never
decrease. -/
theorem publications_current
    (engine : Engine) (debounce : Nat) (documents : List Document)
    (moves : List Move) (move : Move) (id : BufferId)
    (sole : ∀ other ∈ moves ++ [move], other.serves 0 = true) :
    Track.PublishesCurrent engine 0
        (((hosting engine debounce documents).run moves).track id)
        (((hosting engine debounce documents).run (moves ++ [move])).track id) ∧
      ((((hosting engine debounce documents).run (moves ++ [move])).track id).publications.map
        Publication.version).Pairwise (· ≤ ·) := by
  have soleBefore : ∀ other ∈ moves, other.serves 0 = true :=
    fun other member => sole other (List.mem_append_left _ member)
  have logged := logged_run engine debounce documents id sole
  have serves := serves_run engine debounce documents id soleBefore
  have sameEngine : ((hosting engine debounce documents).run moves).engine = engine := by
    rw [engine_run, engine_hosting]
  refine ⟨?_, logged.ordered⟩
  rw [run_append]
  generalize (hosting engine debounce documents).run moves = scheduler at serves sameEngine ⊢
  subst sameEngine
  exact publishesCurrent_apply serves move

/-- A pass is overtaken by an edit and discarded, and a second pass is in flight. -/
def overtaken : List Move :=
  [.on "a.sh" (.notify 0), .wait 250, .on "a.sh" .fire,
    .on "a.sh" (.edit 0 (.setText "echo done")), .on "a.sh" (.notify 0), .wait 250,
    .on "a.sh" .fire, .on "a.sh" (.finish 0)]

theorem publications_current_overtaken :
    (∀ move ∈ overtaken ++ [.on "a.sh" (.finish 1)], move.serves 0 = true) ∧
      (((hosting ⟨.empty, .empty, {}⟩ 250 [⟨"a.sh", 3, ["echo"]⟩]).run
        (overtaken ++ [.on "a.sh" (.finish 1)])).track "a.sh").publishes = 1 ∧
      Track.PublishesCurrent ⟨.empty, .empty, {}⟩ 0
        (((hosting ⟨.empty, .empty, {}⟩ 250 [⟨"a.sh", 3, ["echo"]⟩]).run
          overtaken).track "a.sh")
        (((hosting ⟨.empty, .empty, {}⟩ 250 [⟨"a.sh", 3, ["echo"]⟩]).run
          (overtaken ++ [.on "a.sh" (.finish 1)])).track "a.sh") :=
  ⟨by decide, by decide,
    (publications_current ⟨.empty, .empty, {}⟩ 250 [⟨"a.sh", 3, ["echo"]⟩] overtaken
      (.on "a.sh" (.finish 1)) "a.sh" (by decide)).1⟩

end Scheduler

end Heredoc
