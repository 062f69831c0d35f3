import Heredoc.Proofs.Script.Walk
import Heredoc.Workspace

/-!
# Which files are watched

A workspace comes to its scripts in two ways: a walk through a directory finds them at the start,
and later a file that changed is taken in by itself. Main statement: what the walk finds is also
taken in later, and the two agree on a file exactly if it is no script or no directory on the way
to it is hidden (`walk_and_events_agree_iff`).
-/

namespace Heredoc

namespace Script

open FileTree

/-- A walk comes to something in a directory by a name, to which it comes by the names that
follow. -/
theorem shows_cons_iff
    {files : Files} {path : SystemPath} {entries inside : List (FileName × FileTree)}
    {name : FileName} {rest : List FileName} (distinct : (Assoc.keys entries).Nodup)
    (member : (name, .directory inside) ∈ entries) (further : rest ≠ []) :
    Shows files path entries (name :: rest) ↔
      files.leadsToDirectory (path.join name) = true ∧ isHidden name = false ∧
        Shows files (path.join name) inside rest := by
  constructor
  · intro shows
    cases shows with
    | script => exact absurd rfl further
    | @deeper _ _ others _ _ otherMember isDirectory visible shows =>
        have first := Assoc.get?_of_mem distinct otherMember
        rw [Assoc.get?_of_mem distinct member] at first
        cases first
        exact ⟨isDirectory, visible, shows⟩
  · rintro ⟨isDirectory, visible, shows⟩
    exact .deeper member isDirectory visible shows

section Tree

variable {tree : FileTree} {path : SystemPath} {entries : List (FileName × FileTree)}

/-- In a tree, the path of an entry leads to a directory if it is one and the path is not too
long. -/
theorem leadsToDirectory_join_iff
    {name : FileName} {child : FileTree}
    (located : tree.files.locate path = .ok (.directory entries))
    (inside : Assoc.get? entries name = some child) (isName : IsFileName name)
    (usable : name.IsUsable) :
    tree.files.leadsToDirectory (path.join name) = true ↔
      child.isDirectory = true ∧ (path.join name).bytes.length ≤ longestPath := by
  by_cases fits : (path.join name).bytes.length ≤ longestPath
  · have found := locate_join located name inside isName usable fits
    rw [Files.leadsToDirectory_of_locate found, and_iff_left fits]
  · obtain ⟨reason, missing⟩ := exists_error_of_locate tree (Nat.not_le.mp fits)
    rw [Files.leadsToDirectory, missing]
    exact iff_of_false Bool.false_ne_true fun both => fits both.2

/-- In a tree, the path of a file of text is that of a script as the text says, but only as the name
says if the path is too long. -/
theorem isScriptAt_join_iff
    {name : FileName} {bytes : List UInt8} {text : String}
    (located : tree.files.locate path = .ok (.directory entries))
    (inside : Assoc.get? entries name = some (.file bytes)) (isName : IsFileName name)
    (usable : name.IsUsable) (isText : Text.decode? bytes = some text) :
    isScriptAt tree.files (path.join name) = true ↔
      hasExtension (path.join name) = true ∨
        (path.join name).bytes.length ≤ longestPath ∧ hasShebang text = true := by
  by_cases fits : (path.join name).bytes.length ≤ longestPath
  · rw [isScriptAt_iff (locate_join located name inside isName usable fits), isText,
      and_iff_right fits]
    simp
  · obtain ⟨reason, missing⟩ := exists_error_of_locate tree (Nat.not_le.mp fits)
    rw [isScriptAt_of_locate_eq_error missing]
    simp [fits]

/-- In a tree, a walk comes to a file of text in a directory if its path is that of a script. -/
theorem shows_single_iff
    {name : FileName} {bytes : List UInt8} {text : String}
    (located : tree.files.locate path = .ok (.directory entries))
    (distinct : (Assoc.keys entries).Nodup) (member : (name, .file bytes) ∈ entries)
    (isName : IsFileName name) (usable : name.IsUsable) (isText : Text.decode? bytes = some text) :
    Shows tree.files path entries [name] ↔
      hasExtension (path.join name) = true ∨
        (path.join name).bytes.length ≤ longestPath ∧ hasShebang text = true := by
  have inside := Assoc.get?_of_mem distinct member
  have noDirectory : tree.files.leadsToDirectory (path.join name) = false := by
    rw [← Bool.not_eq_true, leadsToDirectory_join_iff located inside isName usable]
    exact fun leads => Bool.false_ne_true leads.1
  rw [← isScriptAt_join_iff located inside isName usable isText]
  constructor
  · intro shows
    cases shows with
    | script _ _ isScript => exact isScript
    | deeper _ leads => exact absurd leads (ne_true_of_eq_false noDirectory)
  · exact fun isScript => .script member noDirectory isScript

/-- In a tree, a walk comes to a file of text if no directory on the way is hidden or has too long a
path, and the file is a script. If its own path is too long, its name has to say so. -/
theorem shows_iff
    {names : List FileName} {bytes : List UInt8} {text : String}
    (located : tree.files.locate path = .ok (.directory entries))
    (proper : (FileTree.directory entries).IsProper)
    (leads : (FileTree.directory entries).Leads names (.file bytes))
    (usable : ∀ name ∈ names, name.IsUsable) (isText : Text.decode? bytes = some text) :
    Shows tree.files path entries names ↔
      (∀ name ∈ names.dropLast, isHidden name = false) ∧
        (path.descend names.dropLast).bytes.length ≤ longestPath ∧
          (hasExtension (path.descend names) = true ∨
            (path.descend names).bytes.length ≤ longestPath ∧ hasShebang text = true) := by
  induction names generalizing path entries with
  | nil => cases leads
  | cons name rest inductionHypothesis =>
      cases leads with
      | @down _ _ child _ _ member further =>
          have isName : IsFileName name := proper.isFileName member
          have usableName := usable name List.mem_cons_self
          have distinct := proper.distinct [] entries (.here _)
          cases child with
          | file _ =>
              cases further
              have fits : path.bytes.length ≤ longestPath := (resolve_eq_ok_iff.mp located).1.short
              rw [shows_single_iff located distinct member isName usableName isText]
              exact ⟨fun isScript => ⟨by simp, fits, isScript⟩, fun given => given.2.2⟩
          | directory _ =>
              have inside := Assoc.get?_of_mem distinct member
              have unfinished : rest ≠ [] := further.isDirectory_iff.mp rfl
              have way :
                  path.descend (name :: rest).dropLast =
                    (path.join name).descend rest.dropLast := by
                rw [List.dropLast_cons_of_ne_nil unfinished]
                rfl
              have later (fits : (path.join name).bytes.length ≤ longestPath) :=
                inductionHypothesis (locate_join located name inside isName usableName fits)
                  ((FileTree.Leads.entry member).isProper proper) further
                  fun other isLater => usable other (List.mem_cons_of_mem name isLater)
              rw [shows_cons_iff distinct member unfinished,
                leadsToDirectory_join_iff located inside isName usableName, visible_cons_iff, way]
              constructor
              · rintro ⟨⟨_, fits⟩, visible, shows⟩
                obtain ⟨restVisible, given⟩ := (later fits).mp shows
                exact ⟨⟨fun _ => visible, restVisible⟩, given⟩
              · rintro ⟨⟨visible, restVisible⟩, wayFits, given⟩
                have fits : (path.join name).bytes.length ≤ longestPath :=
                  Nat.le_trans (SystemPath.length_le_descend _ _) wayFits
                exact ⟨⟨rfl, fits⟩, visible unfinished,
                  (later fits).mpr ⟨restVisible, wayFits, given⟩⟩

end Tree

/-- A walk comes to a file of text exactly if it is a script, no directory on the way to it is
hidden, and the paths that the walk makes on the way are not too long. -/
theorem exists_mem_walk_iff
    {tree : FileTree} {root path : SystemPath} {entries : List (FileName × FileTree)}
    {names : List FileName} {bytes : List UInt8} {text : String}
    (located : tree.files.locate root = .ok (.directory entries))
    (proper : (FileTree.directory entries).IsProper)
    (leads : (FileTree.directory entries).Leads names (.file bytes))
    (usable : ∀ name ∈ names, name.IsUsable) (isText : Text.decode? bytes = some text)
    (spelled : path.components = root.components ++ names.map Component.name) :
    (∃ found ∈ walk tree.files root, found.components = path.components) ↔
      (∀ name ∈ names.dropLast, isHidden name = false) ∧
        (root.descend names.dropLast).bytes.length ≤ longestPath ∧
          (hasExtension path = true ∨
            (root.descend names).bytes.length ≤ longestPath ∧ hasShebang text = true) := by
  have components :
      (root.descend names).components = path.components := by
    rw [SystemPath.components_descend (leads.isFileName proper), spelled]
  rw [hasExtension_congr components.symm, ← shows_iff located proper leads usable isText]
  constructor
  · rintro ⟨found, member, same⟩
    obtain ⟨others, shows, rfl⟩ := (mem_walk_iff located).mp member
    obtain ⟨below, otherLeads⟩ := shows.exists_leads
    have lists := same
    rw [SystemPath.components_descend (otherLeads.isFileName proper), spelled] at lists
    have sameNames : others = names :=
      (List.map_inj_right fun _ _ => Component.name.inj).mp (List.append_cancel_left lists)
    exact sameNames ▸ shows
  · intro shows
    exact ⟨_, (mem_walk_iff located).mpr ⟨names, shows, rfl⟩, components⟩

end Script

namespace Workspace

/-- A path that is not open is opened by its text exactly if that makes it a script. -/
theorem isOpen_reload_iff
    {workspace : Workspace} {path : Path} (closed : workspace.isOpen path = false)
    (text : String) :
    (workspace.reload path text).isOpen path = true ↔ Script.isScript path text = true := by
  have unknown : workspace.opened.get? path.components = none := by
    simpa [isOpen, Assoc.contains] using closed
  rw [reload, unknown]
  dsimp only
  split
  · rename_i isScript
    refine iff_of_true ?_ isScript
    simp [openPath, isOpen, Assoc.contains, Assoc.get?_put]
  · rename_i notScript
    exact iff_of_false (by rw [closed]; exact Bool.false_ne_true) notScript

/-- A file below a directory that a workspace does not have open is taken in as its text says.
What the walk through the directory finds is taken in, and what is taken in was found unless it is
a script in a hidden directory, or the path that the walk makes for it is too long: that of its
directory, or its own if only its first line tells that it is a script. -/
theorem walk_and_events_agree_iff
    {tree : FileTree} (proper : tree.IsProper)
    {root : SystemPath} {path : Path} {entries : List (FileName × FileTree)}
    {names : List FileName} {text : String}
    (isDirectory : tree.files.locate root = .ok (.directory entries))
    (below : path.components = root.components ++ names.map Component.name)
    (readable : tree.files.readText path = .ok text)
    {workspace : Workspace} (closed : workspace.isOpen path = false) :
    workspace.refresh tree.files path = workspace.reload path text ∧
      ((∃ found ∈ Script.walk tree.files root, found.components = path.components) →
        (workspace.reload path text).isOpen path = true) ∧
      (((∃ found ∈ Script.walk tree.files root, found.components = path.components) ↔
          (workspace.reload path text).isOpen path = true) ↔
        (Script.isScript path text = true →
          (∀ name ∈ names.dropLast, Script.isHidden name = false) ∧
            (root.descend names.dropLast).bytes.length ≤ FileTree.longestPath ∧
              (Script.hasExtension path = true ∨
                (root.descend names).bytes.length ≤ FileTree.longestPath))) := by
  obtain ⟨bytes, located, isText⟩ := Files.readText_eq_ok_iff.mp readable
  obtain ⟨found, usable⟩ := FileTree.lookup_of_resolve isDirectory located below
  obtain ⟨_, way, _, atWay, _⟩ := FileTree.resolve_eq_ok_iff.mp isDirectory
  have topProper : (FileTree.directory entries).IsProper :=
    (FileTree.Leads.of_lookup atWay).isProper proper
  have walk : (∃ found ∈ Script.walk tree.files root, found.components = path.components) ↔ _ :=
    Script.exists_mem_walk_iff isDirectory topProper (.of_lookup found) usable isText below
  have event := isOpen_reload_iff closed text
  have rule : Script.isScript path text = true ↔
      Script.hasExtension path = true ∨ Script.hasShebang text = true := Bool.or_eq_true_iff
  refine ⟨?_, ?_, ?_⟩
  · rw [refresh, readable]
  · intro isFound
    obtain ⟨_, _, isScript⟩ := walk.mp isFound
    exact event.mpr (rule.mpr (isScript.imp_right And.right))
  · rw [walk, event, rule]
    constructor
    · intro agree isScript
      obtain ⟨visible, fits, given⟩ := agree.mpr isScript
      exact ⟨visible, fits, given.imp_right And.left⟩
    · intro condition
      constructor
      · rintro ⟨_, _, given⟩
        exact given.imp_right And.right
      · intro isScript
        obtain ⟨visible, fits, given⟩ := condition isScript
        refine ⟨visible, fits, ?_⟩
        rcases isScript with extension | shebang
        · exact .inl extension
        · exact given.imp_right fun short => ⟨short, shebang⟩

/-- A hidden directory with a script in it, which is empty. -/
def hooks : FileTree :=
  .directory [(".git", .directory [("hook.sh", .file [])])]

theorem isProper_hooks : hooks.IsProper :=
  FileTree.isProper_single (by decide)
    (FileTree.isProper_single (by decide) (FileTree.isProper_file _))

theorem locate_hooks : hooks.files.locate (.ofText ".") = .ok hooks :=
  FileTree.locate_of_components_eq_current ⟨by decide, by decide, by decide⟩ (by decide)

/-- The path of the script. -/
def hook : Path := ⟨"./.git/hook.sh"⟩

theorem readText_hooks : hooks.files.readText hook = .ok "" := by
  have atDirectory :=
    FileTree.locate_join locate_hooks ".git" rfl (by decide) ⟨by decide, by decide⟩ (by decide)
  have located : hooks.files.locate hook = .ok (.file []) :=
    FileTree.locate_join atDirectory "hook.sh" rfl (by decide) ⟨by decide, by decide⟩ (by decide)
  have isText : Text.decode? [] = some "" := by
    rw [Text.decode?, Text.decodePieces]
    rfl
  exact Files.readText_eq_ok_iff.mpr ⟨[], located, isText⟩

/-- The script is not found by a walk, but it is opened when it changes. -/
theorem walk_and_events_agree_iff_hook :
    let workspace := Workspace.start (.start ⟨.standard, .standard fun _ => none, {}⟩ 250)
    hooks.IsProper ∧
      hooks.files.locate (.ofText ".") = .ok hooks ∧
      hook.components =
        (SystemPath.ofText ".").components ++ [".git", "hook.sh"].map Component.name ∧
      hooks.files.readText hook = .ok "" ∧
      workspace.isOpen hook = false ∧
      (¬ ∃ found ∈ Script.walk hooks.files (.ofText "."), found.components = hook.components) ∧
      (workspace.refresh hooks.files hook).isOpen hook = true := by
  intro workspace
  have below :
      hook.components =
        (SystemPath.ofText ".").components ++ [".git", "hook.sh"].map Component.name := by
    decide +kernel
  have closed : workspace.isOpen hook = false := rfl
  obtain ⟨taken, _, agree⟩ :=
    walk_and_events_agree_iff isProper_hooks locate_hooks below readText_hooks closed
  have opened : (workspace.reload hook "").isOpen hook = true := by decide +kernel
  have isScript : Script.isScript hook "" = true := by decide +kernel
  refine ⟨isProper_hooks, locate_hooks, below, readText_hooks, closed, ?_, taken ▸ opened⟩
  intro isFound
  obtain ⟨visible, _⟩ := agree.mp (iff_of_true isFound opened) isScript
  exact absurd (visible ".git" List.mem_cons_self) (by decide +kernel)

end Workspace

end Heredoc
