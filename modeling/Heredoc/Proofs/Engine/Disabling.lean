import Heredoc.Proofs.Engine.Segments
import Heredoc.Proofs.Scan.Bodies
import Heredoc.Settings.File

/-!
# Turning validators off

A validator that is turned off takes its own diagnostics with it and nothing else: the same regions
are found, and what the other validators are given and what they leave stays as it was, in the same
order. Turning off several, in any order and more than once, leaves out what belongs to one of them
(`disabling_filters`).
-/

namespace Heredoc

/-! ## What a check reports -/

/-- The diagnostics of a check with these settings and the keys of the validators that ran, or the
missing line. -/
def Engine.reports (engine : Engine) (view : View) (settings : Settings) :
    Except MissingLine (List Diagnostic × List String) :=
  (Engine.validate { engine with settings } view).map fun done => (done.diagnostics, done.calls)

/-- The diagnostic has the source of none of these keys. -/
def Diagnostic.Outside (keys : List String) (diagnostic : Diagnostic) : Prop :=
  ∀ key ∈ keys, diagnostic.source ≠ "heredoc:" ++ key

instance (keys : List String) (diagnostic : Diagnostic) : Decidable (diagnostic.Outside keys) :=
  inferInstanceAs (Decidable (∀ key ∈ keys, diagnostic.source ≠ "heredoc:" ++ key))

/-- What is reported apart from what belongs to these keys. -/
def leavingOut (keys : List String) (reported : List Diagnostic × List String) :
    List Diagnostic × List String :=
  (reported.1.filter (Diagnostic.Outside keys ·), reported.2.filter (· ∉ keys))

theorem Diagnostic.sourceOf_inj {key other : String} :
    sourceOf key = sourceOf other ↔ key = other := by
  constructor
  · intro same
    have letters := congrArg String.toList same
    rw [sourceOf, sourceOf, String.toList_append, String.toList_append] at letters
    exact String.toList_inj.mp (List.append_cancel_left letters)
  · rintro rfl
    rfl

theorem Diagnostic.outside_iff {keys : List String} {diagnostic : Diagnostic} {key : String}
    (belongs : diagnostic.source = sourceOf key) :
    diagnostic.Outside keys ↔ key ∉ keys := by
  rw [Outside, belongs]
  constructor
  · intro outside member
    exact outside key member rfl
  · intro absent other member same
    obtain rfl := sourceOf_inj.mp same
    exact absent member

section LeavingOut

variable {keys : List String} {key : String} {diagnostics : List Diagnostic} {calls : List String}
  (belong : ∀ diagnostic ∈ diagnostics, diagnostic.source = Diagnostic.sourceOf key)
  (called : ∀ other ∈ calls, other = key)
include belong called

theorem leavingOut_of_not_mem (absent : key ∉ keys) :
    leavingOut keys (diagnostics, calls) = (diagnostics, calls) := by
  apply Prod.ext
  · apply List.filter_eq_self.mpr
    intro diagnostic member
    exact decide_eq_true ((Diagnostic.outside_iff (belong diagnostic member)).mpr absent)
  · apply List.filter_eq_self.mpr
    intro other member
    rw [called other member]
    exact decide_eq_true absent

theorem leavingOut_of_mem (present : key ∈ keys) :
    leavingOut keys (diagnostics, calls) = ([], []) := by
  apply Prod.ext
  · apply List.filter_eq_nil_iff.mpr
    intro diagnostic member
    rw [decide_eq_true_eq, Diagnostic.outside_iff (belong diagnostic member)]
    exact not_not_intro present
  · apply List.filter_eq_nil_iff.mpr
    intro other member
    rw [decide_eq_true_eq, called other member]
    exact not_not_intro present

end LeavingOut

/-- Only the set of the keys counts. -/
theorem leavingOut_congr
    {keys others : List String} (same : ∀ key, key ∈ keys ↔ key ∈ others) :
    leavingOut keys = leavingOut others := by
  funext reported
  apply Prod.ext
  · apply List.filter_congr
    intro diagnostic _
    apply decide_eq_decide.mpr
    exact forall_congr' fun key => imp_congr_left (same key)
  · apply List.filter_congr
    intro key _
    exact decide_eq_decide.mpr (not_congr (same key))

/-! ## Every diagnostic belongs to the key of its region -/

theorem Outcome.source_of_mem_diagnostics
    {outcome : Outcome} {bodyStart : Nat} {key : String} {diagnostic : Diagnostic}
    (member : diagnostic ∈ outcome.diagnostics bodyStart key) :
    diagnostic.source = Diagnostic.sourceOf key := by
  cases broke : outcome.failure? with
  | some message =>
      rw [diagnostics_of_failure? broke, List.mem_singleton] at member
      rw [member]
      rfl
  | none =>
      cases outcome with
      | findings found =>
          obtain ⟨finding, _, placed⟩ := List.mem_filterMap.mp member
          obtain ⟨range, _, rfl⟩ := Option.map_eq_some_iff.mp placed
          rfl
      | failed reason => cases broke
      | ioFailed reason => cases broke
      | crashed reason => cases broke

/-! ## Settings with validators turned off -/

namespace Settings

/-- The settings with the validators of these keys turned off, one after another. -/
def disable (settings : Settings) (keys : List String) : Settings :=
  settings.setAll (keys.map fun key => (key, false))

theorem disable_cons (settings : Settings) (key : String) (keys : List String) :
    settings.disable (key :: keys) = (settings.setEnabled key false).disable keys :=
  rfl

theorem isEnabled_disable (settings : Settings) (keys : List String) (key : String) :
    (settings.disable keys).isEnabled key = (decide (key ∉ keys) && settings.isEnabled key) := by
  induction keys generalizing settings with
  | nil => rfl
  | cons first keys inductionHypothesis =>
      rw [disable_cons, inductionHypothesis, isEnabled_setEnabled]
      by_cases same : first = key
      · simp [same]
      · simp [same, Ne.symm same]

theorem maxBytes_disable (settings : Settings) (keys : List String) :
    (settings.disable keys).maxBytes = settings.maxBytes := by
  induction keys generalizing settings with
  | nil => rfl
  | cons first keys inductionHypothesis => rw [disable_cons, inductionHypothesis, setEnabled]

theorem resolve_eq_disable (request : Request) (files : Files) (standard : Path) :
    request.resolve files standard =
      (Request.resolve { request with disable := [] } files standard).map
        (·.disable request.disable) := by
  have applied (settings : Settings) :
      request.applied settings =
        (Request.applied { request with disable := [] } settings).disable request.disable :=
    rfl
  cases named : request.file with
  | some path =>
      simp only [Request.resolve, named]
      cases load files path with
      | error error => rfl
      | ok settings => exact congrArg Except.ok (applied settings)
  | none =>
      simp only [Request.resolve, named]
      cases loadOrStandard files standard with
      | error error => rfl
      | ok settings => exact congrArg Except.ok (applied settings)

end Settings

namespace Engine

variable {engine : Engine} {region : Region}

/-! ## Region by region -/

theorem validatorFor?_disable (engine : Engine) (keys : List String) (tag : String) :
    Engine.validatorFor? { engine with settings := engine.settings.disable keys } tag =
      (engine.validatorFor? tag).filter fun routed => decide (routed.1 ∉ keys) := by
  simp only [validatorFor?]
  cases engine.tags.lookup tag with
  | none => rfl
  | some key =>
      simp only [Settings.isEnabled_disable, Bool.and_eq_true, decide_eq_true_eq]
      by_cases off : key ∈ keys
      · rw [if_neg fun enabled => enabled.1 off]
        split
        · cases engine.validators.get? key with
          | none => rfl
          | some validator => exact (Option.filter_some_neg (by simpa using off)).symm
        · rfl
      · simp only [off, not_false_eq_true, true_and]
        split
        · cases engine.validators.get? key with
          | none => rfl
          | some validator => exact (Option.filter_some_pos (by simpa using off)).symm
        · rfl

theorem source_of_mem_dispatchRegion
    {key : String} {validator : Validator}
    (routed : engine.validatorFor? region.tag = some (key, validator)) (view : View) :
    (∀ diagnostic ∈ (engine.dispatchRegion view region).diagnostics,
        diagnostic.source = Diagnostic.sourceOf key) ∧
      ∀ called ∈ (engine.dispatchRegion view region).calls, called = key := by
  simp only [dispatchRegion, routed]
  split
  · refine ⟨?_, ?_⟩
    · intro diagnostic member
      rw [List.mem_singleton.mp member]
      rfl
    · intro called member
      cases member
  · refine ⟨fun diagnostic member => Outcome.source_of_mem_diagnostics member, ?_⟩
    intro called member
    exact List.mem_singleton.mp member

/-- A region whose validator is turned off leaves nothing, any other what it left before. -/
theorem dispatchRegion_disable (engine : Engine) (view : View) (region : Region)
    (keys : List String) :
    let off :=
      Engine.dispatchRegion { engine with settings := engine.settings.disable keys } view region
    let on := engine.dispatchRegion view region
    (off.diagnostics, off.calls) = leavingOut keys (on.diagnostics, on.calls) := by
  intro off on
  have filtered := engine.validatorFor?_disable keys region.tag
  cases routed : engine.validatorFor? region.tag with
  | none =>
      rw [routed, Option.filter_none] at filtered
      simp only [off, on, dispatchRegion, filtered, routed]
      rfl
  | some found =>
      obtain ⟨key, validator⟩ := found
      obtain ⟨belong, called⟩ := source_of_mem_dispatchRegion routed view
      rw [routed] at filtered
      by_cases listed : key ∈ keys
      · rw [Option.filter_some_neg (by simpa using listed)] at filtered
        rw [leavingOut_of_mem belong called listed]
        simp only [off, dispatchRegion, filtered]
        rfl
      · rw [Option.filter_some_pos (by simpa using listed)] at filtered
        rw [leavingOut_of_not_mem belong called listed]
        simp only [off, dispatchRegion, filtered, routed, Settings.maxBytes_disable]

theorem dispatch_disable (engine : Engine) (view : View) (regions : List Region)
    (keys : List String) :
    let off := Engine.dispatch { engine with settings := engine.settings.disable keys } view regions
    let on := engine.dispatch view regions
    (off.diagnostics, off.calls) = leavingOut keys (on.diagnostics, on.calls) := by
  induction regions with
  | nil => rfl
  | cons region rest inductionHypothesis =>
      have here := engine.dispatchRegion_disable view region keys
      simp only [leavingOut, Prod.mk.injEq] at here inductionHypothesis ⊢
      simp only [dispatch, List.map_cons, List.foldr_cons, Dispatched.append, List.filter_append]
        at inductionHypothesis ⊢
      rw [here.1, here.2, inductionHypothesis.1, inductionHypothesis.2]
      exact ⟨rfl, rfl⟩

/-! ## The whole check -/

theorem reports_disable (engine : Engine) (view : View) (settings : Settings)
    (keys : List String) :
    engine.reports view (settings.disable keys) =
      (engine.reports view settings).map (leavingOut keys) := by
  simp only [reports, validate]
  cases scan engine.tags view with
  | error missing => rfl
  | ok regions =>
      have dispatched := dispatch_disable { engine with settings } view regions keys
      exact congrArg Except.ok dispatched

theorem map_fst_reports (engine : Engine) (view : View) (settings : Settings) :
    (engine.reports view settings).map Prod.fst =
      (validate { engine with settings } view).map Dispatched.diagnostics := by
  rw [reports]
  cases validate { engine with settings } view with
  | error missing => rfl
  | ok done => rfl

/-- Turning a validator off filters out the diagnostics of its key, and turning off several in any
order filters by their set; a missing line is reported as before. -/
theorem disabling_filters (engine : Engine) (view : View) :
    (∀ key,
      (validate { engine with settings := engine.settings.setEnabled key false } view).map
          Dispatched.diagnostics =
        (engine.validate view).map fun done =>
          done.diagnostics.filter fun diagnostic => diagnostic.source ≠ "heredoc:" ++ key) ∧
    (∀ settings keys,
      engine.reports view (settings.disable keys) =
        (engine.reports view settings).map (leavingOut keys)) ∧
    ∀ (request : Settings.Request) (files : Files) (standard : Path) (disable : List String),
      (Settings.Request.resolve { request with disable } files standard).map (engine.reports view) =
          (Settings.Request.resolve { request with disable := [] } files standard).map
            (fun settings => (engine.reports view settings).map (leavingOut disable)) ∧
        ∀ others, (∀ key, key ∈ others ↔ key ∈ disable) →
          (Settings.Request.resolve { request with disable := others } files standard).map
              (engine.reports view) =
            (Settings.Request.resolve { request with disable } files standard).map
              (engine.reports view) := by
  have resolved (request : Settings.Request) (files : Files) (standard : Path)
      (disable : List String) :
      (Settings.Request.resolve { request with disable } files standard).map (engine.reports view) =
        (Settings.Request.resolve { request with disable := [] } files standard).map
          (fun settings => (engine.reports view settings).map (leavingOut disable)) := by
    rw [Settings.resolve_eq_disable]
    cases Settings.Request.resolve { request with disable := [] } files standard with
    | error error => rfl
    | ok settings => exact congrArg Except.ok (engine.reports_disable view settings disable)
  refine ⟨?_, engine.reports_disable view, fun request files standard disable => ⟨?_, ?_⟩⟩
  · intro key
    have reported :=
      congrArg (Except.map Prod.fst) (engine.reports_disable view engine.settings [key])
    rw [map_fst_reports, reports] at reported
    cases found : engine.validate view with
    | error missing =>
        rw [found] at reported
        exact reported
    | ok done =>
        rw [found] at reported
        refine reported.trans (congrArg Except.ok (List.filter_congr fun diagnostic _ => ?_))
        exact decide_eq_decide.mpr List.forall_mem_singleton
  · exact resolved request files standard disable
  · intro others same
    rw [resolved request files standard disable, resolved request files standard others,
      leavingOut_congr same]

/-- An engine where two tags share a validator, which crashes. -/
def sharing : Engine where
  tags := ⟨[("JSON", "json"), ("YAML", "yaml"), ("YML", "yaml")]⟩
  validators :=
    ⟨[("yaml", ⟨"yaml", fun _ => 5, fun _ => .crashed none⟩),
      ("json", ⟨"json", fun _ => 0, fun _ => .findings [.error "unclosed" (.lineStart 0)]⟩)]⟩
  settings := { maxBytes := 4 }

def sharedScript : Document :=
  ⟨"a.sh", 1,
    ["cat <<YAML", "a: [", "YAML", "cat <<JSON", "[1", "JSON", "cat <<YML", "a: b c", "YML"]⟩

/-- The crash and the note on the large body go, whatever their tag, the finding between them
stays. -/
theorem disabling_filters_sharedKey :
    let finding : Diagnostic := ⟨"unclosed", .error, .lineStart 4, "heredoc:json", .malformed⟩
    let resolved (disable : List String) :=
      (Settings.Request.resolve { disable } FileTree.empty.files ⟨"config.toml"⟩).map
        (sharing.reports sharedScript.view)
    sharing.reports sharedScript.view sharing.settings =
        .ok ([.validatorFailed "yaml" 1 "validator panicked: unknown panic", finding,
          .tooLarge "yaml" 7], ["yaml", "json"]) ∧
      sharing.reports sharedScript.view (sharing.settings.disable ["yaml", "xml", "yaml"]) =
        .ok ([finding], ["json"]) ∧
      (∀ key, key ∈ ["xml", "yaml"] ↔ key ∈ ["yaml", "xml", "yaml"]) ∧
      resolved ["xml", "yaml"] = resolved ["yaml", "xml", "yaml"] := by
  intro finding resolved
  have tags : sharing.tags.tags = ["JSON", "YAML", "YML"] :=
    List.mergeSort_of_pairwise (by decide)
  have reported :
      sharing.reports sharedScript.view sharing.settings =
        .ok ([.validatorFailed "yaml" 1 "validator panicked: unknown panic", finding,
          .tooLarge "yaml" 7], ["yaml", "json"]) := by
    rw [reports, validate, Document.scan_view, tags]
    decide +kernel
  have same : ∀ key, key ∈ ["xml", "yaml"] ↔ key ∈ ["yaml", "xml", "yaml"] := by
    intro key
    simp only [List.mem_cons, List.not_mem_nil, or_false]
    exact ⟨.inr, fun listed => listed.elim .inr id⟩
  obtain ⟨_, disabled, configured⟩ := disabling_filters sharing sharedScript.view
  refine ⟨reported, ?_, same, ?_⟩
  · rw [disabled, reported]
    decide +kernel
  · exact (configured {} FileTree.empty.files ⟨"config.toml"⟩ _).2 ["xml", "yaml"] same

end Engine

end Heredoc
