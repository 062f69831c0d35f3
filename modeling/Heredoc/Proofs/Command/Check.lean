import Heredoc.Proofs.Engine.Segments
import Heredoc.Proofs.Json.RoundTrip
import Heredoc.Proofs.Tag.Order

/-!
# All or nothing

A check reads its settings and then file after file, and prints when it has read them all. Main
statement: it fails if and only if the settings do not hold or some file cannot be read, and then
nothing was printed; otherwise all diagnostics are printed, file by file, and the status tells
whether there is an error among them (`Surroundings.check_all_or_nothing`).
-/

namespace Heredoc

/-! ## Until something fails -/

section Mapping

variable {α β ε : Type} {action : α → Except ε β}

theorem mapM_cons_of_ok
    {first : α} {output : β} (succeeded : action first = .ok output) (rest : List α) :
    (first :: rest).mapM action = (rest.mapM action).map (output :: ·) := by
  rw [List.mapM_cons, succeeded]
  cases rest.mapM action <;> rfl

theorem mapM_cons_of_error
    {first : α} {error : ε} (failed : action first = .error error) (rest : List α) :
    (first :: rest).mapM action = .error error := by
  rw [List.mapM_cons, failed]
  rfl

end Mapping

/-! ## Skipped bodies -/

/-- Only the note for a skipped body has the code of one, and it is no error. -/
theorem Engine.severity_of_tooLarge
    {engine : Engine} {view : View} {diagnostics : List Diagnostic} {diagnostic : Diagnostic}
    (found : engine.diagnose view = .ok diagnostics) (listed : diagnostic ∈ diagnostics)
    (skipped : diagnostic.code = .tooLarge) :
    diagnostic.severity = .information := by
  rw [diagnose, validate] at found
  cases scanned : scan engine.tags view with
  | error missing =>
      rw [scanned] at found
      cases found
  | ok regions =>
      rw [scanned] at found
      cases found
      rw [diagnostics_dispatch] at listed
      obtain ⟨region, _, inSegment⟩ := List.mem_flatMap.mp listed
      have yielded : engine.Yields view region (engine.answer view region) _ := yields_iff.mpr rfl
      generalize engine.segment view region (engine.answer view region) = segment
        at inSegment yielded
      cases yielded with
      | unmapped unknown => cases inSegment
      | disabled mapped off => cases inSegment
      | unregistered mapped absent => cases inSegment
      | oversized routed tooLarge =>
          rw [List.mem_singleton.mp inSegment]
      | failed routed fits broke =>
          rw [List.mem_singleton.mp inSegment] at skipped
          cases skipped
      | checked routed fits ended =>
          obtain ⟨finding, _, placed⟩ := List.mem_filterMap.mp inSegment
          obtain ⟨range, _, rfl⟩ := Option.map_eq_some_iff.mp placed
          cases skipped

/-! ## What is printed -/

/-- The output lists the diagnostics of the reports one by one: as lines, or as an array in which
each file has its report. -/
def Format.Lists (reports : List FileReport) (output : String) : Format → Prop
  | .text =>
      output =
        String.join (reports.flatMap fun report =>
          report.diagnostics.map fun diagnostic => diagnosticLine report.path diagnostic ++ "\n")
  | .json => Json.decode (Json.list FileReport.record.read) output = .ok reports

theorem Format.lists_print (format : Format) (reports : List FileReport) :
    format.Lists reports (format.print reports) := by
  cases format with
  | text =>
      simp only [Format.Lists, Format.print, printLines, List.map_flatMap, FileReport.lines,
        List.map_map]
      rfl
  | json =>
      have decodes := Json.decodes_list FileReport.decodes_toJson reports
      exact decodes.decode_print 0 "\n" (by simp [Json.isSpace])

/-- What was printed lists the reports, and the status tells whether there is an error in them. -/
structure Finished.Tells (finished : Finished) (format : Format) (reports : List FileReport) :
    Prop where
  output : format.Lists reports finished.output
  status : finished.result = .ok 0 ∨ finished.result = .ok 1
  errors :
    finished.result = .ok 1 ↔
      ∃ report ∈ reports, ∃ diagnostic ∈ report.diagnostics, diagnostic.severity = .error
  /-- Warnings and notes about skipped bodies are no errors. -/
  harmless :
    (∀ report ∈ reports, ∀ diagnostic ∈ report.diagnostics,
        diagnostic.severity = .warning ∨ diagnostic.code = .tooLarge) →
      finished.result = .ok 0

theorem any_hasErrors_iff {reports : List FileReport} :
    reports.any FileReport.hasErrors = true ↔
      ∃ report ∈ reports, ∃ diagnostic ∈ report.diagnostics, diagnostic.severity = .error := by
  simp only [List.any_eq_true, FileReport.hasErrors, Diagnostic.isError, decide_eq_true_iff]

/-! ## What is reported -/

namespace Surroundings

variable {surroundings : Surroundings} {request : Settings.Request} {path : Path}
  {paths : List Path}

/-- The report has the path as it was given, and what the engine finds in the text there. -/
structure Reports
    (surroundings : Surroundings) (engine : Engine) (path : Path) (report : FileReport) :
    Prop where
  path_eq : report.path = path.text
  found :
    ∃ text,
      surroundings.files.readText path = .ok text ∧
        engine.diagnose (Document.ofText path.text 0 text).view = .ok report.diagnostics

/-- The settings do not hold, or some file cannot be read. -/
def IsObstructed
    (surroundings : Surroundings) (request : Settings.Request) (paths : List Path) : Prop :=
  (∃ error, request.resolve surroundings.files surroundings.standard = .error error) ∨
    ∃ path ∈ paths, ∃ error, surroundings.files.readText path = .error error

/-- Why a check cannot be carried out: the settings, or the first file that cannot be read. -/
inductive Hinders
    (surroundings : Surroundings) (request : Settings.Request) (paths : List Path) :
    CommandError → Prop where
  | settings {error : Settings.ResolveError}
      (unresolved : request.resolve surroundings.files surroundings.standard = .error error) :
      Hinders surroundings request paths (.settings error)
  | file {settings : Settings} {before after : List Path} {path : Path} {error : ReadError}
      (resolved : request.resolve surroundings.files surroundings.standard = .ok settings)
      (split : paths = before ++ path :: after)
      (readable : ∀ earlier ∈ before, ∃ text, surroundings.files.readText earlier = .ok text)
      (unreadable : surroundings.files.readText path = .error error) :
      Hinders surroundings request paths (.unreadable path error)

/-! ### One file -/

/-- There is only one report on a file. -/
theorem Reports.diagnostics_eq
    {engine : Engine} {report : FileReport} {text : String} {diagnostics : List Diagnostic}
    (reported : surroundings.Reports engine path report)
    (read : surroundings.files.readText path = .ok text)
    (found : engine.diagnose (Document.ofText path.text 0 text).view = .ok diagnostics) :
    report.diagnostics = diagnostics := by
  obtain ⟨known, alsoRead, alsoFound⟩ := reported.found
  obtain rfl : text = known := Except.ok.inj (read.symm.trans alsoRead)
  exact Except.ok.inj (alsoFound.symm.trans found)

theorem checkFile_of_readText_ok
    {text : String} (engine : Engine) (read : surroundings.files.readText path = .ok text) :
    ∃ report,
      surroundings.checkFile engine path = .ok report ∧
        surroundings.Reports engine path report := by
  have validated := engine.validate_view (.ofText path.text 0 text)
  generalize engine.dispatch _ _ = dispatched at validated
  refine ⟨⟨path.text, dispatched.diagnostics⟩, ?_, rfl, text, read, ?_⟩
  · simp only [checkFile, readDocument, read, bind, Except.bind, validated]
    rfl
  · rw [Engine.diagnose, validated]
    rfl

theorem checkFile_of_readText_error
    {error : ReadError} (engine : Engine)
    (unreadable : surroundings.files.readText path = .error error) :
    surroundings.checkFile engine path = .error (.unreadable path error) := by
  simp only [checkFile, readDocument, unreadable, bind, Except.bind]

/-! ### All files -/

/-- Either some file is the first that cannot be read, and reading goes no further, or there is a
report on each file. -/
theorem mapM_checkFile_cases (surroundings : Surroundings) (engine : Engine) (paths : List Path) :
    (∃ (before : List Path) (path : Path) (after : List Path) (error : ReadError),
        paths = before ++ path :: after ∧
          (∀ earlier ∈ before, ∃ text, surroundings.files.readText earlier = .ok text) ∧
            surroundings.files.readText path = .error error ∧
              paths.mapM (surroundings.checkFile engine) = .error (.unreadable path error)) ∨
      ((∀ path ∈ paths, ∃ text, surroundings.files.readText path = .ok text) ∧
        ∃ reports,
          paths.mapM (surroundings.checkFile engine) = .ok reports ∧
            List.Forall₂ (surroundings.Reports engine) paths reports) := by
  induction paths with
  | nil => exact .inr ⟨by simp, [], rfl, .nil⟩
  | cons first rest inductionHypothesis =>
      cases read : surroundings.files.readText first with
      | error error =>
          have refused := mapM_cons_of_error (checkFile_of_readText_error engine read) rest
          exact .inl ⟨[], first, rest, error, rfl, by simp, read, refused⟩
      | ok text =>
          obtain ⟨report, checked, reported⟩ := checkFile_of_readText_ok engine read
          have onward := mapM_cons_of_ok checked rest
          rcases inductionHypothesis with
            ⟨before, path, after, error, rfl, readable, unreadable, stopped⟩ |
              ⟨readable, reports, finished, reportedRest⟩
          · rw [stopped] at onward
            refine .inl ⟨first :: before, path, after, error, rfl, ?_, unreadable, onward⟩
            exact List.forall_mem_cons.mpr ⟨⟨text, read⟩, readable⟩
          · rw [finished] at onward
            exact .inr ⟨List.forall_mem_cons.mpr ⟨⟨text, read⟩, readable⟩, report :: reports,
              onward, .cons reported reportedRest⟩

/-- All that a check can do: it is hindered and prints nothing, or it prints its reports. -/
theorem check_cases
    (surroundings : Surroundings) (request : Settings.Request) (format : Format)
    (paths : List Path) :
    (∃ error,
        surroundings.Hinders request paths error ∧
          surroundings.check request format paths = ⟨"", .error error⟩) ∨
      ∃ settings reports,
        request.resolve surroundings.files surroundings.standard = .ok settings ∧
          (∀ path ∈ paths, ∃ text, surroundings.files.readText path = .ok text) ∧
            List.Forall₂ (surroundings.Reports (surroundings.engine settings)) paths reports ∧
              surroundings.check request format paths =
                ⟨format.print reports,
                  .ok (if reports.any FileReport.hasErrors then 1 else 0)⟩ := by
  cases resolved : request.resolve surroundings.files surroundings.standard with
  | error error =>
      refine .inl ⟨.settings error, .settings resolved, ?_⟩
      simp only [check, checkFiles, resolved]
  | ok settings =>
      rcases surroundings.mapM_checkFile_cases (surroundings.engine settings) paths with
        ⟨before, path, after, error, split, readable, unreadable, stopped⟩ |
          ⟨readable, reports, finished, reported⟩
      · refine .inl ⟨.unreadable path error, .file resolved split readable unreadable, ?_⟩
        simp only [check, checkFiles, resolved, stopped]
      · refine .inr ⟨settings, reports, rfl, readable, reported, ?_⟩
        simp only [check, checkFiles, resolved, finished]

/-! ### Output and status -/

/-- What hinders a check is a matter of the settings or of some file. -/
theorem Hinders.isObstructed
    {error : CommandError} (hindered : surroundings.Hinders request paths error) :
    surroundings.IsObstructed request paths := by
  cases hindered with
  | settings unresolved => exact .inl ⟨_, unresolved⟩
  | file resolved split readable unreadable => exact .inr ⟨_, by simp [split], _, unreadable⟩

theorem not_isObstructed
    {settings : Settings}
    (resolved : request.resolve surroundings.files surroundings.standard = .ok settings)
    (readable : ∀ path ∈ paths, ∃ text, surroundings.files.readText path = .ok text) :
    ¬ surroundings.IsObstructed request paths := by
  rintro (⟨error, unresolved⟩ | ⟨path, listed, error, unreadable⟩)
  · rw [resolved] at unresolved
    cases unresolved
  · obtain ⟨text, read⟩ := readable path listed
    rw [read] at unreadable
    cases unreadable

theorem exists_reports_of_mem
    {engine : Engine} {reports : List FileReport} {report : FileReport}
    (reported : List.Forall₂ (surroundings.Reports engine) paths reports)
    (member : report ∈ reports) :
    ∃ path, surroundings.Reports engine path report := by
  induction reported with
  | nil => cases member
  | @cons path _ _ _ here _ inductionHypothesis =>
      rcases List.mem_cons.mp member with rfl | later
      · exact ⟨path, here⟩
      · exact inductionHypothesis later

/-- Warnings and notes about skipped bodies are no errors. -/
theorem hasErrors_of_harmless
    {engine : Engine} {reports : List FileReport}
    (reported : List.Forall₂ (surroundings.Reports engine) paths reports)
    (harmless :
      ∀ report ∈ reports, ∀ diagnostic ∈ report.diagnostics,
        diagnostic.severity = .warning ∨ diagnostic.code = .tooLarge) :
    ¬ reports.any FileReport.hasErrors = true := by
  intro errors
  obtain ⟨report, member, diagnostic, listed, isError⟩ := any_hasErrors_iff.mp errors
  rcases harmless report member diagnostic listed with isWarning | isNote
  · rw [isWarning] at isError
    cases isError
  · obtain ⟨path, reportedHere⟩ := exists_reports_of_mem reported member
    obtain ⟨text, _, found⟩ := reportedHere.found
    rw [Engine.severity_of_tooLarge found listed isNote] at isError
    cases isError

/-- A check that gets as far as its reports prints them, and its status tells of them. -/
theorem tells_reports
    {engine : Engine} {reports : List FileReport}
    (reported : List.Forall₂ (surroundings.Reports engine) paths reports) (format : Format) :
    (Finished.mk (format.print reports)
      (.ok (if reports.any FileReport.hasErrors then 1 else 0))).Tells format reports := by
  refine ⟨format.lists_print reports, ?_, ?_, ?_⟩
  · split
    · exact .inr rfl
    · exact .inl rfl
  · rw [← any_hasErrors_iff]
    split
    · rename_i errors
      exact iff_of_true rfl errors
    · rename_i noErrors
      refine iff_of_false (fun same => ?_) noErrors
      cases same
  · intro harmless
    rw [if_neg (hasErrors_of_harmless reported harmless)]

/-- In all surroundings, for every request, format and list of files: a check fails if and only if
the settings do not hold or some file cannot be read; then it has printed nothing, and fails for the
first of these reasons. Otherwise there is a report on each file, as it was given, with all that the
engine finds in it; the output lists these reports and the status tells of them. -/
theorem check_all_or_nothing
    (surroundings : Surroundings) (request : Settings.Request) (format : Format)
    (paths : List Path) :
    ((∃ error, (surroundings.check request format paths).result = .error error) ↔
        surroundings.IsObstructed request paths) ∧
      (∀ error, (surroundings.check request format paths).result = .error error →
        (surroundings.check request format paths).output = "" ∧
          surroundings.Hinders request paths error) ∧
        ∀ settings, request.resolve surroundings.files surroundings.standard = .ok settings →
          (∀ path ∈ paths, ∃ text, surroundings.files.readText path = .ok text) →
            ∃ reports,
              List.Forall₂ (surroundings.Reports (surroundings.engine settings)) paths reports ∧
                (surroundings.check request format paths).Tells format reports := by
  rcases surroundings.check_cases request format paths with
    ⟨error, hindered, checked⟩ | ⟨settings, reports, resolved, readable, reported, checked⟩
  · rw [checked]
    refine ⟨⟨fun _ => hindered.isObstructed, fun _ => ⟨error, rfl⟩⟩, ?_, ?_⟩
    · intro known same
      cases same
      exact ⟨rfl, hindered⟩
    · intro settings resolved readable
      exact absurd hindered.isObstructed (not_isObstructed resolved readable)
  · rw [checked]
    refine ⟨⟨?_, fun obstructed => ?_⟩, ?_, ?_⟩
    · rintro ⟨_, failed⟩
      cases failed
    · exact absurd obstructed (not_isObstructed resolved readable)
    · intro _ failed
      cases failed
    · intro known alsoResolved _
      obtain rfl : settings = known := Except.ok.inj (resolved.symm.trans alsoResolved)
      exact ⟨reports, reported, tells_reports reported format⟩

/-- A script whose body is no JSON, and nothing else. -/
def desk : Surroundings where
  files := ⟨fun path =>
    if path = .ofText "a.sh" then
      .ok (.file [60, 60, 74, 83, 79, 78, 10, 44, 10, 74, 83, 79, 78])
    else .error .notFound⟩
  standard := ⟨"settings"⟩
  launch _ _ := none

/-- The script is checked, also twice, and has an error; if its body is too large for the settings,
there is only a note. With a missing file after it, nothing is printed. -/
theorem check_all_or_nothing_desk :
    (desk.check {} .json [⟨"a.sh"⟩, ⟨"a.sh"⟩]).result = .ok 1 ∧
      (desk.check ⟨none, some 0, []⟩ .text [⟨"a.sh"⟩]).result = .ok 0 ∧
        (∃ error, (desk.check {} .text [⟨"a.sh"⟩, ⟨"gone.sh"⟩]).result = .error error) ∧
          (desk.check {} .text [⟨"a.sh"⟩, ⟨"gone.sh"⟩]).output = "" := by
  have read : desk.files.readText (Path.mk "a.sh") = .ok "<<JSON\n,\nJSON" := by decide +kernel
  have sorted :
      ["PYTHON", "PLIST", "JSON", "YAML", "XML", "YML", "PY"].mergeSort TagTable.listedBefore =
        ["PYTHON", "PLIST", "JSON", "YAML", "XML", "YML", "PY"] :=
    List.mergeSort_of_pairwise (by decide)
  have standardTags :
      TagTable.standard.tags = ["PYTHON", "PLIST", "JSON", "YAML", "XML", "YML", "PY"] :=
    (TagTable.mergeSort_eq_tags (by decide) (by decide)).symm.trans sorted
  have tags (settings : Settings) :
      (desk.engine settings).tags.tags =
        ["PYTHON", "PLIST", "JSON", "YAML", "XML", "YML", "PY"] :=
    standardTags
  refine ⟨?_, ?_, ?_⟩
  · have found :
        (desk.engine {}).diagnose (Document.ofText "a.sh" 0 "<<JSON\n,\nJSON").view =
          .ok [⟨"expected value", .error, ⟨⟨1, 0⟩, ⟨1, 1⟩⟩, "heredoc:json", .malformed⟩] := by
      rw [Engine.diagnose, Engine.validate_view, tags]
      decide +kernel
    obtain ⟨_, _ | ⟨first, _⟩, tells⟩ :=
      (check_all_or_nothing desk {} .json [⟨"a.sh"⟩, ⟨"a.sh"⟩]).2.2 {} rfl
        (by simp [read])
    refine tells.errors.mpr ⟨_, List.mem_cons_self, ?_⟩
    rw [first.diagnostics_eq read found]
    exact ⟨_, List.mem_cons_self, rfl⟩
  · have found :
        (desk.engine { maxBytes := 0 }).diagnose
            (Document.ofText "a.sh" 0 "<<JSON\n,\nJSON").view =
          .ok [.tooLarge "json" 1] := by
      rw [Engine.diagnose, Engine.validate_view, tags]
      decide +kernel
    obtain ⟨_, _ | ⟨only, _ | _⟩, tells⟩ :=
      (check_all_or_nothing desk ⟨none, some 0, []⟩ .text [⟨"a.sh"⟩]).2.2 { maxBytes := 0 } rfl
        (by simp [read])
    refine tells.harmless fun report member => ?_
    rw [List.mem_singleton.mp member, only.diagnostics_eq read found]
    simp [Diagnostic.tooLarge]
  · obtain ⟨fails, silent, _⟩ := check_all_or_nothing desk {} .text [⟨"a.sh"⟩, ⟨"gone.sh"⟩]
    obtain ⟨error, failed⟩ := fails.mpr (.inr ⟨⟨"gone.sh"⟩, by simp, .notFound, rfl⟩)
    exact ⟨⟨error, failed⟩, (silent error failed).1⟩

end Surroundings

end Heredoc
