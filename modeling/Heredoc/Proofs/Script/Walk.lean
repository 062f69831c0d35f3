import Heredoc.Proofs.FileTree.Following
import Mathlib.Data.List.Forall2
import Mathlib.Data.List.Perm.Basic

/-!
# Walks through a directory

A walk finds exactly the scripts to which it comes by names that are not hidden, the name of the
script itself apart (`mem_walk_iff`). In a tree whose directories have proper and distinct names,
the paths that it gives have distinct components (`nodup_components_below`). Where everything can be
read, it comes to the scripts that no hidden directory hides (`Readable.shows_iff`).
-/

namespace Heredoc

namespace Script

open FileTree

variable {files : Files}

/-- A name is hidden if it is a text that starts with a dot. -/
theorem isHidden_iff {name : FileName} :
    isHidden name = true ↔ ∃ text, name = .ofText text ∧ text.toList.head? = some '.' := by
  rw [isHidden, Option.any_eq_true]
  simp only [FileName.text?_eq_some_iff, decide_eq_true_eq]

theorem hasExtension_congr
    {path other : SystemPath} (same : path.components = other.components) :
    hasExtension path = hasExtension other := by
  rw [hasExtension, hasExtension, SystemPath.extension?_congr same]

/-- A file that can be read is a script by its name, or by its first line if it is text. -/
theorem isScriptAt_iff
    {path : SystemPath} {bytes : List UInt8} (located : files.locate path = .ok (.file bytes)) :
    isScriptAt files path = true ↔
      hasExtension path = true ∨
        ∃ text, Text.decode? bytes = some text ∧ hasShebang text = true := by
  rw [isScriptAt, Bool.or_eq_true, Files.toOption_readText located, Option.any_eq_true]

/-- What cannot be read is a script only by its name. -/
theorem isScriptAt_of_locate_eq_error
    {path : SystemPath} {reason : ReadError} (missing : files.locate path = .error reason) :
    isScriptAt files path = hasExtension path := by
  have unread : files.readText path = .error reason := by
    rw [Files.readText, Files.readBytes, missing]
    rfl
  rw [isScriptAt, unread]
  exact Bool.or_false _

/-- A walk comes from a directory to a script by these names: no directory on the way is hidden, and
each is found by its path. -/
inductive Shows (files : Files) :
    SystemPath → List (FileName × FileTree) → List FileName → Prop
  | script {path : SystemPath} {entries : List (FileName × FileTree)} {name : FileName}
      {tree : FileTree} (member : (name, tree) ∈ entries)
      (noDirectory : files.leadsToDirectory (path.join name) = false)
      (isScript : isScriptAt files (path.join name) = true) :
      Shows files path entries [name]
  | deeper {path : SystemPath} {entries inside : List (FileName × FileTree)} {name : FileName}
      {names : List FileName} (member : (name, .directory inside) ∈ entries)
      (isDirectory : files.leadsToDirectory (path.join name) = true)
      (visible : isHidden name = false) (further : Shows files (path.join name) inside names) :
      Shows files path entries (name :: names)

theorem belowEntries_eq_flatMap (path : SystemPath) (entries : List (FileName × FileTree)) :
    belowEntries files path entries = entries.flatMap (ofEntry files path) := by
  induction entries with
  | nil => rfl
  | cons entry rest inductionHypothesis =>
      rw [belowEntries, List.flatMap_cons, inductionHypothesis]

theorem mem_ofEntry_iff {path found : SystemPath} {name : FileName} {tree : FileTree} :
    found ∈ ofEntry files path (name, tree) ↔
      (files.leadsToDirectory (path.join name) = true ∧ isHidden name = false ∧
          found ∈ below files (path.join name) tree) ∨
        (files.leadsToDirectory (path.join name) = false ∧
          isScriptAt files (path.join name) = true ∧ found = path.join name) := by
  rw [ofEntry]
  cases files.leadsToDirectory (path.join name) <;> cases isHidden name <;>
    cases isScriptAt files (path.join name) <;> simp

-- The recursion is on the tree: its entries are a list of trees, over which there is no induction
-- principle that would give the hypothesis for each of them.
theorem exists_shows_of_mem_below :
    ∀ (tree : FileTree) (path found : SystemPath),
      found ∈ below files path tree →
        ∃ names, Shows files path tree.entries names ∧ tree.isDirectory = true ∧
          found = path.descend names
  | .file bytes, path, found, member => by
      rw [below] at member
      cases member
  | .directory entries, path, found, member => by
      rw [below, belowEntries_eq_flatMap] at member
      obtain ⟨⟨name, child⟩, inEntries, given⟩ := List.mem_flatMap.mp member
      rcases mem_ofEntry_iff.mp given with
        ⟨isDirectory, visible, deeper⟩ | ⟨noDirectory, isScript, rfl⟩
      · obtain ⟨names, further, childDirectory, spelled⟩ :=
          exists_shows_of_mem_below child (path.join name) found deeper
        cases child with
        | file bytes => cases childDirectory
        | directory inside =>
            exact ⟨name :: names, .deeper inEntries isDirectory visible further, rfl, spelled⟩
      · exact ⟨[name], .script inEntries noDirectory isScript, rfl, rfl⟩
termination_by tree => tree
decreasing_by exact sizeOf_lt_of_mem inEntries

theorem Shows.mem_belowEntries
    {path : SystemPath} {entries : List (FileName × FileTree)} {names : List FileName}
    (shows : Shows files path entries names) :
    path.descend names ∈ belowEntries files path entries := by
  induction shows with
  | script member noDirectory isScript =>
      rw [belowEntries_eq_flatMap, List.mem_flatMap]
      exact ⟨_, member, mem_ofEntry_iff.mpr (.inr ⟨noDirectory, isScript, rfl⟩)⟩
  | deeper member isDirectory visible _ inductionHypothesis =>
      rw [belowEntries_eq_flatMap, List.mem_flatMap]
      refine ⟨_, member, mem_ofEntry_iff.mpr (.inl ⟨isDirectory, visible, ?_⟩)⟩
      rw [Script.below]
      exact inductionHypothesis

/-- A walk finds the scripts to which it comes by names, and nothing else. -/
theorem mem_belowEntries_iff
    {path found : SystemPath} {entries : List (FileName × FileTree)} :
    found ∈ belowEntries files path entries ↔
      ∃ names, Shows files path entries names ∧ found = path.descend names := by
  constructor
  · intro member
    have inTree : found ∈ below files path (.directory entries) := by rwa [below]
    obtain ⟨names, shows, _, spelled⟩ := exists_shows_of_mem_below _ path found inTree
    exact ⟨names, shows, spelled⟩
  · rintro ⟨names, shows, rfl⟩
    exact shows.mem_belowEntries

theorem mem_walk_iff
    {root found : SystemPath} {entries : List (FileName × FileTree)}
    (located : files.locate root = .ok (.directory entries)) :
    found ∈ walk files root ↔
      ∃ names, Shows files root entries names ∧ found = root.descend names := by
  rw [walk, located]
  exact List.mem_mergeSort.trans mem_belowEntries_iff

/-- Of what a walk gives, those scripts are found whose paths are text. -/
theorem mem_find_iff {root path : Path} :
    path ∈ find files root ↔ path.system ∈ walk files root := by
  rw [find, List.mem_filterMap]
  constructor
  · rintro ⟨found, member, isText⟩
    rwa [← SystemPath.text?_eq_some_iff.mp isText]
  · exact fun member => ⟨path.system, member, SystemPath.text?_eq_some_iff.mpr rfl⟩

theorem visible_cons_iff {name : FileName} {names : List FileName} :
    (∀ other ∈ (name :: names).dropLast, isHidden other = false) ↔
      (names ≠ [] → isHidden name = false) ∧ ∀ other ∈ names.dropLast, isHidden other = false := by
  cases names with
  | nil => simp
  | cons next rest => simp [List.dropLast_cons_cons]

/-- Something is where a walk comes to. -/
theorem Shows.exists_leads
    {path : SystemPath} {entries : List (FileName × FileTree)} {names : List FileName}
    (shows : Shows files path entries names) :
    ∃ below, (FileTree.directory entries).Leads names below := by
  induction shows with
  | script member _ _ => exact ⟨_, .entry member⟩
  | deeper member _ _ _ inductionHypothesis =>
      obtain ⟨found, leads⟩ := inductionHypothesis
      exact ⟨found, .down member leads⟩

/-! ## Repetition -/

/-- All that an entry gives has the name of the entry at the same place. -/
theorem exists_components_of_mem_ofEntry
    {files : Files} {path found : SystemPath} {entry : FileName × FileTree}
    (isName : IsFileName entry.1) (proper : entry.2.IsProper)
    (given : found ∈ ofEntry files path entry) :
    ∃ names : List FileName,
      found.components = path.components ++ .name entry.1 :: names.map Component.name := by
  obtain ⟨name, tree⟩ := entry
  rcases mem_ofEntry_iff.mp given with ⟨_, _, deeper⟩ | ⟨_, _, rfl⟩
  · obtain ⟨names, shows, isDirectory, rfl⟩ := exists_shows_of_mem_below tree _ found deeper
    obtain ⟨below, leads⟩ := shows.exists_leads
    have areNames : ∀ name ∈ names, IsFileName name := by
      cases tree with
      | file bytes => cases isDirectory
      | directory entries => exact leads.isFileName proper
    refine ⟨names, ?_⟩
    rw [SystemPath.components_descend areNames, SystemPath.components_join isName,
      List.append_assoc, List.singleton_append]
  · exact ⟨[], SystemPath.components_join isName path⟩

/-- The scripts in a proper tree have distinct components. -/
theorem nodup_components_below (files : Files) :
    ∀ (tree : FileTree) (path : SystemPath),
      tree.IsProper → ((below files path tree).map SystemPath.components).Nodup
  | .file bytes, path, _ => by
      rw [below]
      exact List.nodup_nil
  | .directory entries, path, proper => by
      have named : ∀ entry ∈ entries, IsFileName entry.1 := fun _ => proper.isFileName
      have keys : entries.Pairwise fun entry later => entry.1 ≠ later.1 :=
        List.pairwise_map.mp (proper.distinct [] entries (.here _))
      have childProper : ∀ entry ∈ entries, entry.2.IsProper :=
        fun _ member => (Leads.entry member).isProper proper
      rw [below, belowEntries_eq_flatMap, List.map_flatMap, List.nodup_flatMap]
      constructor
      · intro entry member
        have inside := nodup_components_below files entry.2 (path.join entry.1)
          (childProper entry member)
        rw [ofEntry]
        split
        · split
          · exact List.nodup_nil
          · exact inside
        · split
          · exact List.nodup_singleton _
          · exact List.nodup_nil
      · refine keys.imp_of_mem ?_
        intro entry later member laterMember different components found foundLater
        obtain ⟨first, firstFound, rfl⟩ := List.mem_map.mp found
        obtain ⟨second, secondFound, same⟩ := List.mem_map.mp foundLater
        obtain ⟨names, spelled⟩ :=
          exists_components_of_mem_ofEntry (named entry member) (childProper entry member)
            firstFound
        obtain ⟨laterNames, laterSpelled⟩ :=
          exists_components_of_mem_ofEntry (named later laterMember) (childProper later laterMember)
            secondFound
        rw [spelled, laterSpelled, List.append_cancel_left_eq] at same
        exact different (Component.name.inj (List.cons.inj same).1).symm
termination_by tree => tree
decreasing_by exact sizeOf_lt_of_mem member

/-! ## Trees that can be read -/

/-- Everything below a path can be read: the tree is what the paths lead to, and of each directory
in it the names are listed in some order. -/
structure Readable (files : Files) (listing : SystemPath → Except ReadError (List FileName))
    (path : SystemPath) (tree : FileTree) : Prop where
  located : ∀ names below, tree.Leads names below → files.locate (path.descend names) = .ok below
  listed :
    ∀ names entries,
      tree.Leads names (.directory entries) →
        ∃ order, listing (path.descend names) = .ok order ∧ order.Perm (Assoc.keys entries)

namespace Readable

variable {files : Files} {listing : SystemPath → Except ReadError (List FileName)}
  {path : SystemPath}

theorem here {tree : FileTree} (readable : Readable files listing path tree) :
    files.locate path = .ok tree :=
  readable.located [] tree (.here tree)

theorem child
    {entries : List (FileName × FileTree)} {entry : FileName × FileTree}
    (readable : Readable files listing path (.directory entries)) (member : entry ∈ entries) :
    Readable files listing (path.join entry.1) entry.2 where
  located names below leads := readable.located (entry.1 :: names) below (.down member leads)
  listed names entries leads := readable.listed (entry.1 :: names) entries (.down member leads)

/-- The entries of a directory can be put into the order of its listing. -/
theorem exists_perm
    {entries : List (FileName × FileTree)}
    (readable : Readable files listing path (.directory entries)) :
    ∃ ordered : List (FileName × FileTree),
      listing path = .ok (Assoc.keys ordered) ∧ ordered.Perm entries := by
  obtain ⟨order, listed, perm⟩ := readable.listed [] entries (.here _)
  have keys : List.Forall₂ (fun name entry => name = entry.1) (Assoc.keys entries) entries := by
    rw [Assoc.keys, List.forall₂_map_left_iff, List.forall₂_same]
    exact fun _ _ => rfl
  obtain ⟨ordered, named, same⟩ := List.perm_comp_forall₂ perm keys
  have names : order = Assoc.keys ordered := by
    rw [Assoc.keys, ← List.forall₂_eq_eq_eq, List.forall₂_map_right_iff]
    exact named
  exact ⟨ordered, names ▸ listed, same⟩

theorem file {bytes : List UInt8} (located : files.locate path = .ok (.file bytes)) :
    Readable files listing path (.file bytes) where
  located names below leads := by
    cases leads
    exact located
  listed names entries leads := by cases leads

theorem directory
    {entries : List (FileName × FileTree)} {order : List FileName}
    (located : files.locate path = .ok (.directory entries))
    (listed : listing path = .ok order) (perm : order.Perm (Assoc.keys entries))
    (each : ∀ entry ∈ entries, Readable files listing (path.join entry.1) entry.2) :
    Readable files listing path (.directory entries) where
  located names below leads := by
    cases leads with
    | here => exact located
    | down member further => exact (each _ member).located _ _ further
  listed names inner leads := by
    cases leads with
    | here => exact ⟨order, listed, perm⟩
    | down member further => exact (each _ member).listed _ _ further

end Readable

/-- Where everything can be read, a walk comes to the scripts that no hidden directory hides. -/
theorem Readable.shows_iff
    {files : Files} {listing : SystemPath → Except ReadError (List FileName)} {path : SystemPath}
    {entries : List (FileName × FileTree)} {names : List FileName}
    (readable : Readable files listing path (.directory entries)) :
    Shows files path entries names ↔
      ∃ bytes,
        (FileTree.directory entries).Leads names (.file bytes) ∧
          (∀ name ∈ names.dropLast, isHidden name = false) ∧
            isScriptAt files (path.descend names) = true := by
  constructor
  · intro shows
    induction shows with
    | @script path entries name tree member noDirectory isScript =>
        rw [Files.leadsToDirectory_of_locate (readable.child member).here] at noDirectory
        cases tree with
        | directory inside => cases noDirectory
        | file bytes => exact ⟨bytes, .entry member, by simp, isScript⟩
    | deeper member _ visible _ inductionHypothesis =>
        obtain ⟨bytes, leads, restVisible, isScript⟩ := inductionHypothesis (readable.child member)
        exact ⟨bytes, .down member leads, visible_cons_iff.mpr ⟨fun _ => visible, restVisible⟩,
          isScript⟩
  · rintro ⟨bytes, leads, visible, isScript⟩
    induction names generalizing path entries with
    | nil => cases leads
    | cons name rest inductionHypothesis =>
        cases leads with
        | @down _ _ child _ _ member further =>
            have inChild := readable.child member
            have kind := Files.leadsToDirectory_of_locate inChild.here
            obtain ⟨seen, restVisible⟩ := visible_cons_iff.mp visible
            cases child with
            | file bytes =>
                cases further
                exact .script member kind isScript
            | directory inside =>
                have unfinished : rest ≠ [] := further.isDirectory_iff.mp rfl
                exact .deeper member kind (seen unfinished)
                  (inductionHypothesis inChild further restVisible isScript)

end Script

end Heredoc
