import Heredoc.Proofs.Script.Order
import Heredoc.Proofs.Script.Walk

/-!
# A walk that lists one directory after another

A walk keeps a stack of directories. It takes the top one, gets the names in it in any order, and
takes up one entry after another: a directory that is not hidden goes onto the stack, and a script
goes to what was found. Files are only asked for by their paths.

Main statements: one step keeps what was found together with what the stack still holds
(`Walk.Sound.step`), and whatever the orders of the listings, the walk ends with the scripts of the
tree, each of them once, which are then sorted (`walk_exact`).
-/

namespace Heredoc

namespace SystemPath

theorem fileName?_join {name : FileName} (isName : IsFileName name) (path : SystemPath) :
    (path.join name).fileName? = some name := by
  rw [fileName?, components_join isName, List.getLast?_concat]

end SystemPath

namespace Script

open FileTree

/-! ## What a walk comes upon -/

/-- Something in a directory, with its path. -/
structure Place where
  path : SystemPath
  tree : FileTree

namespace Place

/-- The place of an entry of a directory. -/
def ofEntry (path : SystemPath) (entry : FileName × FileTree) : Place :=
  ⟨path.join entry.1, entry.2⟩

/-- The scripts that a walk gets from an entry. -/
def scripts (files : Files) (place : Place) : List SystemPath :=
  if files.leadsToDirectory place.path then
    if place.path.fileName?.any isHidden then [] else below files place.path place.tree
  else if isScriptAt files place.path then [place.path]
  else []

theorem scripts_ofEntry
    {files : Files} {path : SystemPath} {entry : FileName × FileTree}
    (isName : IsFileName entry.1) :
    (ofEntry path entry).scripts files = Script.ofEntry files path entry := by
  rw [scripts, ofEntry, Script.ofEntry, SystemPath.fileName?_join isName, Option.any_some]

end Place

theorem belowEntries_eq_flatMap_scripts
    {files : Files} {path : SystemPath} {entries : List (FileName × FileTree)}
    (named : ∀ entry ∈ entries, IsFileName entry.1) :
    belowEntries files path entries =
      (entries.map (Place.ofEntry path)).flatMap (Place.scripts files) := by
  rw [belowEntries_eq_flatMap, List.flatMap_map]
  exact List.flatMap_congr fun entry member => (Place.scripts_ofEntry (named entry member)).symm

/-! ## The walk -/

mutual

/-- How many steps a walk takes in a tree with no hidden directories: each directory is listed, and
each entry is taken up. -/
def steps : FileTree → Nat
  | .file _ => 0
  | .directory entries => 1 + stepsIn entries

/-- How many steps a walk takes for the entries of a directory. -/
def stepsIn : List (FileName × FileTree) → Nat
  | [] => 0
  | (_, tree) :: rest => 1 + steps tree + stepsIn rest

end

/-- A walk on its way. -/
structure Walk where
  /-- The entries of the directory that was listed last, as far as they were not taken up. -/
  entries : List SystemPath
  /-- The directories that are still to be listed, the next one first. -/
  pending : List SystemPath
  found : List SystemPath
deriving DecidableEq, Repr

namespace Walk

/-- Nothing was listed. -/
def start (root : SystemPath) : Walk := ⟨[], [root], []⟩

/-- Takes up an entry. What cannot be read is no directory, and a script only by its name. -/
def visit (files : Files) (walk : Walk) (path : SystemPath) : Walk :=
  if files.leadsToDirectory path then
    if path.fileName?.any isHidden then walk
    else { walk with pending := path :: walk.pending }
  else if isScriptAt files path then { walk with found := walk.found ++ [path] }
  else walk

/-- Takes up the next entry; when there is none, lists the next directory. A walk that is over
stays as it is. -/
def step (files : Files) (listing : SystemPath → Except ReadError (List FileName)) (walk : Walk) :
    Except ReadError Walk :=
  match walk.entries, walk.pending with
  | path :: rest, _ => .ok (visit files { walk with entries := rest } path)
  | [], next :: rest =>
      (listing next).map fun names => { walk with entries := names.map next.join, pending := rest }
  | [], [] => .ok walk

/-- Takes so many steps. -/
def run (files : Files) (listing : SystemPath → Except ReadError (List FileName)) :
    Nat → Walk → Except ReadError Walk
  | 0, walk => .ok walk
  | count + 1, walk => (step files listing walk).bind (run files listing count)

theorem run_over
    (files : Files) (listing : SystemPath → Except ReadError (List FileName)) (count : Nat)
    (found : List SystemPath) :
    run files listing count ⟨[], [], found⟩ = .ok ⟨[], [], found⟩ := by
  induction count with
  | zero => rfl
  | succ count inductionHypothesis =>
      rw [run, step]
      exact inductionHypothesis

/-! ## One step -/

/-- How many steps there are to take at these places. -/
def remaining : List Place → Nat
  | [] => 0
  | place :: rest => steps place.tree + remaining rest

theorem remaining_perm {places others : List Place} (same : places.Perm others) :
    remaining places = remaining others := by
  induction same with
  | nil => rfl
  | cons place _ inductionHypothesis => rw [remaining, remaining, inductionHypothesis]
  | swap place other rest =>
      simp only [remaining]
      omega
  | trans _ _ first second => exact first.trans second

theorem stepsIn_eq (path : SystemPath) (entries : List (FileName × FileTree)) :
    stepsIn entries = entries.length + remaining (entries.map (Place.ofEntry path)) := by
  induction entries with
  | nil => rfl
  | cons entry rest inductionHypothesis =>
      obtain ⟨name, tree⟩ := entry
      rw [stepsIn, inductionHypothesis, List.map_cons, remaining, Place.ofEntry, List.length_cons]
      dsimp only
      omega

/-- The walk stands before these entries and directories, and what it found and has still to find
are the scripts. -/
structure Sound (files : Files) (listing : SystemPath → Except ReadError (List FileName))
    (scripts : List SystemPath) (entries pending : List Place) (walk : Walk) : Prop where
  entries_eq : walk.entries = entries.map Place.path
  pending_eq : walk.pending = pending.map Place.path
  proper : ∀ place ∈ entries ++ pending, place.tree.IsProper
  readable : ∀ place ∈ entries ++ pending, Readable files listing place.path place.tree
  directories : ∀ place ∈ pending, place.tree.isDirectory = true
  perm :
    (walk.found ++
      (entries.flatMap (Place.scripts files) ++
        pending.flatMap fun place => below files place.path place.tree)).Perm scripts

namespace Sound

variable {files : Files} {listing : SystemPath → Except ReadError (List FileName)}
  {scripts : List SystemPath} {entries pending : List Place} {walk : Walk}

theorem start
    {root : SystemPath} {inside : List (FileName × FileTree)}
    (proper : (FileTree.directory inside).IsProper)
    (readable : Readable files listing root (.directory inside)) :
    Sound files listing (belowEntries files root inside) [] [⟨root, .directory inside⟩]
      (Walk.start root) where
  entries_eq := rfl
  pending_eq := rfl
  proper place member := by
    cases List.mem_singleton.mp member
    exact proper
  readable place member := by
    cases List.mem_singleton.mp member
    exact readable
  directories place member := by
    cases List.mem_singleton.mp member
    rfl
  perm := by
    rw [List.flatMap_nil, List.flatMap_singleton, below]
    exact .refl _

/-- An entry is taken up: its scripts are found, or it is a directory and kept for later. -/
theorem visit
    {place : Place} {rest : List Place}
    (sound : Sound files listing scripts (place :: rest) pending walk) :
    ∃ later,
      Sound files listing scripts rest later
          (Walk.visit files { walk with entries := rest.map Place.path } place.path) ∧
        remaining later ≤ steps place.tree + remaining pending := by
  have located : files.locate place.path = .ok place.tree :=
    (sound.readable place List.mem_cons_self).here
  have perm := sound.perm
  rw [List.flatMap_cons, List.append_assoc] at perm
  have properRest : ∀ place ∈ rest ++ pending, place.tree.IsProper :=
    fun place member => sound.proper place (List.mem_cons_of_mem _ member)
  have readableRest : ∀ place ∈ rest ++ pending, Readable files listing place.path place.tree :=
    fun place member => sound.readable place (List.mem_cons_of_mem _ member)
  by_cases leads : files.leadsToDirectory place.path = true
  · by_cases hidden : place.path.fileName?.any isHidden = true
    · have visited :
          Walk.visit files { walk with entries := rest.map Place.path } place.path =
            { walk with entries := rest.map Place.path } := by
        rw [Walk.visit, if_pos leads, if_pos hidden]
      have none : place.scripts files = [] := by
        rw [Place.scripts, if_pos leads, if_pos hidden]
      refine ⟨pending, ?_, Nat.le_add_left _ _⟩
      rw [visited]
      refine ⟨rfl, sound.pending_eq, properRest, readableRest, sound.directories, ?_⟩
      rw [none, List.nil_append] at perm
      exact perm
    · have visited :
          Walk.visit files { walk with entries := rest.map Place.path } place.path =
            { walk with
              entries := rest.map Place.path
              pending := place.path :: walk.pending } := by
        rw [Walk.visit, if_pos leads, if_neg hidden]
      have all : place.scripts files = below files place.path place.tree := by
        rw [Place.scripts, if_pos leads, if_neg hidden]
      have moved : (rest ++ place :: pending).Perm (place :: (rest ++ pending)) :=
        List.perm_middle
      refine ⟨place :: pending, ?_, Nat.le_refl _⟩
      rw [visited]
      refine ⟨rfl, ?_, ?_, ?_, ?_, ?_⟩
      · rw [List.map_cons, sound.pending_eq]
      · exact fun other member => sound.proper other (moved.mem_iff.mp member)
      · exact fun other member => sound.readable other (moved.mem_iff.mp member)
      · intro other member
        rcases List.mem_cons.mp member with rfl | later
        · rwa [Files.leadsToDirectory_of_locate located] at leads
        · exact sound.directories other later
      · rw [all] at perm
        rw [List.flatMap_cons]
        exact ((List.perm_append_comm_assoc _ _ _).append_left _).trans perm
  · have visited :
        Walk.visit files { walk with entries := rest.map Place.path } place.path =
          { walk with
            entries := rest.map Place.path
            found := walk.found ++ place.scripts files } := by
      rw [Walk.visit, Place.scripts, if_neg leads, if_neg leads]
      split
      · rfl
      · rw [List.append_nil]
    refine ⟨pending, ?_, Nat.le_add_left _ _⟩
    rw [visited]
    refine ⟨rfl, sound.pending_eq, properRest, readableRest, sound.directories, ?_⟩
    rw [List.append_assoc]
    exact perm

/-- A directory is listed: its entries take its place. -/
theorem list
    {place : Place} {rest : List Place}
    (sound : Sound files listing scripts [] (place :: rest) walk) :
    ∃ names inside,
      listing place.path = .ok names ∧
        Sound files listing scripts inside rest
          { walk with entries := names.map place.path.join, pending := rest.map Place.path } ∧
          inside.length + remaining inside < steps place.tree := by
  obtain ⟨path, tree⟩ := place
  have readable := sound.readable ⟨path, tree⟩ List.mem_cons_self
  have proper := sound.proper ⟨path, tree⟩ List.mem_cons_self
  have isDirectory := sound.directories ⟨path, tree⟩ List.mem_cons_self
  cases tree with
  | file bytes => cases isDirectory
  | directory entries =>
      obtain ⟨ordered, listed, same⟩ := readable.exists_perm
      have placed : (ordered.map (Place.ofEntry path)).Perm (entries.map (Place.ofEntry path)) :=
        same.map _
      have entryOf :
          ∀ place ∈ ordered.map (Place.ofEntry path),
            ∃ entry ∈ entries, Place.ofEntry path entry = place :=
        fun place member => List.mem_map.mp (placed.mem_iff.mp member)
      refine ⟨Assoc.keys ordered, ordered.map (Place.ofEntry path), listed, ?_, ?_⟩
      · refine ⟨?_, rfl, ?_, ?_, ?_, ?_⟩
        · rw [Assoc.keys, List.map_map, List.map_map]
          rfl
        · intro place member
          rcases List.mem_append.mp member with inside | later
          · obtain ⟨entry, inEntries, rfl⟩ := entryOf place inside
            exact (Leads.entry inEntries).isProper proper
          · exact sound.proper place (List.mem_cons_of_mem _ later)
        · intro place member
          rcases List.mem_append.mp member with inside | later
          · obtain ⟨entry, inEntries, rfl⟩ := entryOf place inside
            exact readable.child inEntries
          · exact sound.readable place (List.mem_cons_of_mem _ later)
        · exact fun place member => sound.directories place (List.mem_cons_of_mem _ member)
        · have perm := sound.perm
          rw [List.flatMap_nil, List.nil_append, List.flatMap_cons, below,
            belowEntries_eq_flatMap_scripts fun _ => proper.isFileName] at perm
          exact (((placed.flatMap_right _).append_right _).append_left _).trans perm
      · rw [remaining_perm placed, placed.length_eq, List.length_map, steps, stepsIn_eq path]
        omega

/-- As long as there is something to do, a step is taken and less is left to do. -/
theorem step
    (sound : Sound files listing scripts entries pending walk)
    (unfinished : entries ++ pending ≠ []) :
    ∃ next more later,
      Walk.step files listing walk = .ok next ∧
        Sound files listing scripts more later next ∧
          more.length + remaining more + remaining later <
            entries.length + remaining entries + remaining pending := by
  have entriesEq := sound.entries_eq
  have pendingEq := sound.pending_eq
  cases entries with
  | cons place rest =>
      obtain ⟨later, visited, less⟩ := sound.visit
      refine ⟨_, rest, later, ?_, visited, ?_⟩
      · rw [Walk.step, entriesEq, List.map_cons]
      · rw [List.length_cons, remaining]
        omega
  | nil =>
      cases pending with
      | nil => exact absurd rfl unfinished
      | cons place rest =>
          obtain ⟨names, inside, listed, opened, less⟩ := sound.list
          refine ⟨_, inside, rest, ?_, opened, ?_⟩
          · rw [Walk.step, entriesEq, pendingEq, List.map_nil, List.map_cons]
            dsimp only
            rw [listed]
            rfl
          · rw [List.length_nil, remaining, remaining]
            omega

/-- The walk ends, and then it has found the scripts. -/
theorem exists_run (sound : Sound files listing scripts entries pending walk) :
    ∃ count found,
      (∀ later, Walk.run files listing (count + later) walk = .ok ⟨[], [], found⟩) ∧
        found.Perm scripts := by
  generalize total : entries.length + remaining entries + remaining pending = weight
  induction weight using Nat.strongRecOn generalizing entries pending walk with
  | ind weight inductionHypothesis =>
      by_cases finished : entries ++ pending = []
      · obtain ⟨rfl, rfl⟩ := List.append_eq_nil_iff.mp finished
        obtain ⟨walkEntries, walkPending, found⟩ := walk
        obtain rfl : walkEntries = [] := sound.entries_eq
        obtain rfl : walkPending = [] := sound.pending_eq
        refine ⟨0, found, fun later => run_over files listing _ found, ?_⟩
        have perm := sound.perm
        rwa [List.flatMap_nil, List.flatMap_nil, List.append_nil, List.append_nil] at perm
      · obtain ⟨next, more, later, stepped, nextSound, less⟩ := sound.step finished
        obtain ⟨count, found, ended, perm⟩ :=
          inductionHypothesis _ (total ▸ less) nextSound rfl
        refine ⟨count + 1, found, fun later => ?_, perm⟩
        rw [Nat.add_right_comm, run, stepped]
        exact ended later

end Sound

end Walk

/-- A walk through a directory of which everything can be read ends, in whatever order the
directories are listed, and what it found is sorted to the scripts of the tree. These are in the
order of paths without repetition: the files with the name or the first line of a script to which no
hidden directory leads. A directory whose name is no text is not hidden. -/
theorem walk_exact
    {files : Files} {listing : SystemPath → Except ReadError (List FileName)} {root : SystemPath}
    {entries : List (FileName × FileTree)}
    (proper : (FileTree.directory entries).IsProper)
    (readable : Readable files listing root (.directory entries)) :
    (∃ count found,
        (∀ later, Walk.run files listing (count + later) (.start root) = .ok ⟨[], [], found⟩) ∧
          SystemPath.sort found = walk files root) ∧
      ((walk files root).Pairwise fun path later =>
        SystemPath.listedBefore path.components later.components = true ∧
          path.components ≠ later.components) ∧
        ∀ path,
          path ∈ walk files root ↔
            ∃ names bytes,
              (FileTree.directory entries).Leads names (.file bytes) ∧
                path = root.descend names ∧
                  (∀ name ∈ names.dropLast,
                    ¬ ∃ text, name = .ofText text ∧ text.toList.head? = some '.') ∧
                    (hasExtension path = true ∨
                      ∃ text, Text.decode? bytes = some text ∧ hasShebang text = true) := by
  have distinct : ((belowEntries files root entries).map SystemPath.components).Nodup := by
    have inTree := nodup_components_below files _ root proper
    rwa [below] at inTree
  have sorted : walk files root = SystemPath.sort (belowEntries files root entries) := by
    rw [walk, readable.here]
  refine ⟨?_, ?_, ?_⟩
  · obtain ⟨count, found, ended, perm⟩ := (Walk.Sound.start proper readable).exists_run
    refine ⟨count, found, ended, ?_⟩
    rw [sorted]
    exact (SystemPath.sort_eq_of_perm perm.symm distinct).symm
  · rw [sorted]
    exact SystemPath.pairwise_sort_of_nodup distinct
  · intro path
    simp only [mem_walk_iff readable.here, readable.shows_iff, ← isHidden_iff,
      Bool.not_eq_true]
    constructor
    · rintro ⟨names, ⟨bytes, leads, visible, isScript⟩, rfl⟩
      exact ⟨names, bytes, leads, rfl, visible,
        (isScriptAt_iff (readable.located names _ leads)).mp isScript⟩
    · rintro ⟨names, bytes, leads, rfl, visible, isScript⟩
      exact ⟨names, ⟨bytes, leads, visible,
        (isScriptAt_iff (readable.located names _ leads)).mpr isScript⟩, rfl⟩

/-- The names in a directory, the last entry first. -/
def backwards (files : Files) (path : SystemPath) : Except ReadError (List FileName) :=
  (files.locate path).map fun tree => (Assoc.keys tree.entries).reverse

theorem readable_backwards
    {tree : FileTree} {path : SystemPath} {entries : List (FileName × FileTree)}
    (located : tree.files.locate path = .ok (.directory entries))
    (each :
      ∀ entry ∈ entries,
        Readable tree.files (backwards tree.files) (path.join entry.1) entry.2) :
    Readable tree.files (backwards tree.files) path (.directory entries) := by
  refine .directory located ?_ (List.reverse_perm _) each
  rw [backwards, located]
  rfl

/-- A directory with a hidden script, and with a script in a hidden directory. -/
def rooms : List (FileName × FileTree) :=
  [("bin", .directory [("run", .file [35, 33, 47, 98, 105, 110, 47, 115, 104])]),
   (".git", .directory [("hook.sh", .file [])]), (".profile.sh", .file [])]

/-- A tree in which that directory is hidden. -/
def house : FileTree :=
  .directory [(".home", .directory rooms)]

theorem isProper_house : house.IsProper := by
  refine isProper_single (by decide) (FileTree.isProper_directory (by decide) ?_)
  intro entry member
  rcases List.mem_cons.mp member with rfl | later
  · exact ⟨by decide, isProper_single (by decide) (FileTree.isProper_file _)⟩
  · rcases List.mem_cons.mp later with rfl | last
    · exact ⟨by decide, isProper_single (by decide) (FileTree.isProper_file _)⟩
    · cases List.mem_singleton.mp last
      exact ⟨by decide, FileTree.isProper_file _⟩

/-- The path of the hidden directory. -/
def home : SystemPath := .ofText ".home"

theorem locate_house : house.files.locate home = .ok (.directory rooms) := by
  have atTop : house.lookup [] = some house := by rw [lookup]
  have atHome : house.lookup [".home"] = some (.directory rooms) := by
    simp [house, lookup, FileTree.entries, Assoc.get?]
  have components : home.components = [.name ".home"] := by decide +kernel
  have followed : home.components.foldlM house.follow [] = .ok [".home"] := by
    have first : house.follow [] (.name ".home") = .ok [".home"] :=
      follow_name_eq_ok_iff.mpr ⟨⟨_, atTop⟩, by decide, rfl⟩
    rw [components, foldlM_follow_cons first]
    rfl
  exact resolve_eq_ok_iff.mpr
    ⟨⟨by decide, by decide, by decide⟩, _, followed, atHome, fun _ => rfl⟩

theorem readable_house :
    Readable house.files (backwards house.files) home (.directory rooms) := by
  refine readable_backwards locate_house fun entry member => ?_
  rcases List.mem_cons.mp member with rfl | later
  · have located :=
      locate_join locate_house "bin" rfl (by decide) ⟨by decide, by decide⟩ (by decide)
    refine readable_backwards located fun entry member => ?_
    cases List.mem_singleton.mp member
    exact .file (locate_join located "run" rfl (by decide) ⟨by decide, by decide⟩ (by decide))
  · rcases List.mem_cons.mp later with rfl | last
    · have located :=
        locate_join locate_house ".git" rfl (by decide) ⟨by decide, by decide⟩ (by decide)
      refine readable_backwards located fun entry member => ?_
      cases List.mem_singleton.mp member
      exact .file
        (locate_join located "hook.sh" rfl (by decide) ⟨by decide, by decide⟩ (by decide))
    · cases List.mem_singleton.mp last
      exact .file
        (locate_join locate_house ".profile.sh" rfl (by decide) ⟨by decide, by decide⟩ (by decide))

/-- The hidden directory is walked, whose hidden script is found, but not the script in the hidden
directory below it. -/
theorem walk_exact_house :
    (FileTree.directory rooms).IsProper ∧
      Readable house.files (backwards house.files) home (.directory rooms) ∧
        (∃ count found,
          (∀ later,
            Walk.run house.files (backwards house.files) (count + later) (.start home) =
              .ok ⟨[], [], found⟩) ∧
            SystemPath.sort found = walk house.files home) ∧
          .ofText ".home/.profile.sh" ∈ walk house.files home ∧
            .ofText ".home/bin/run" ∈ walk house.files home ∧
              .ofText ".home/.git/hook.sh" ∉ walk house.files home := by
  have proper : (FileTree.directory rooms).IsProper :=
    (Leads.entry List.mem_cons_self).isProper isProper_house
  obtain ⟨ended, _, exact⟩ := walk_exact proper readable_house
  refine ⟨proper, readable_house, ended, ?_, ?_, ?_⟩
  · have leads : (FileTree.directory rooms).Leads [".profile.sh"] (.file []) :=
      .down (by simp [rooms]) (.here _)
    exact (exact _).mpr ⟨_, _, leads, by decide, by simp, .inl (by decide +kernel)⟩
  · have leads :
        (FileTree.directory rooms).Leads ["bin", "run"]
          (.file [35, 33, 47, 98, 105, 110, 47, 115, 104]) :=
      .down List.mem_cons_self (.entry List.mem_cons_self)
    refine (exact _).mpr ⟨_, _, leads, by decide, ?_, .inr ⟨"#!/bin/sh", ?_, ?_⟩⟩
    · intro name member
      cases List.mem_singleton.mp member
      rw [← isHidden_iff]
      decide +kernel
    · decide +kernel
    · decide +kernel
  · intro member
    obtain ⟨names, bytes, leads, spelled, visible, _⟩ := (exact _).mp member
    have components := SystemPath.components_descend (leads.isFileName proper) home
    rw [← spelled] at components
    have whole :
        SystemPath.components (.ofText ".home/.git/hook.sh") =
          home.components ++ [".git", "hook.sh"].map Component.name := by
      decide +kernel
    rw [whole] at components
    have sameNames : ([".git", "hook.sh"] : List FileName) = names :=
      (List.map_inj_right fun _ _ => Component.name.inj).mp (List.append_cancel_left components)
    rw [← sameNames] at visible
    exact visible ".git" List.mem_cons_self ⟨".git", rfl, rfl⟩

/-! ## Names that are no text, and paths that are too long -/

/-- No name on the way to a file starts with a dot, and the file has the name or the first line of a
script. -/
def IsPlainScript (root : SystemPath) (names : List FileName) (bytes : List UInt8) : Prop :=
  (∀ name ∈ names.dropLast, name.bytes.head? ≠ some SystemPath.dot) ∧
    (hasExtension (root.descend names) = true ∨
      ∃ text, Text.decode? bytes = some text ∧ hasShebang text = true)

/-- A name that starts with a dot and is no text. -/
def unreadableName : FileName := ⟨[46, 255]⟩

/-- A name of two hundred bytes. -/
def longName : FileName := ⟨List.replicate 200 100⟩

/-- A directory of some name with a script in it, which is empty. -/
def cabinet (name : FileName) : FileTree :=
  .directory [(name, .directory [("a.sh", .file [])])]

/-- The bytes of `.` after so many times `./`. -/
def roundabout : Nat → List UInt8
  | 0 => [SystemPath.dot]
  | count + 1 => SystemPath.dot :: SystemPath.slash :: roundabout count

theorem length_roundabout (count : Nat) : (roundabout count).length = 2 * count + 1 := by
  induction count with
  | zero => rfl
  | succ count inductionHypothesis =>
      rw [roundabout, List.length_cons, List.length_cons, inductionHypothesis]
      omega

theorem zero_not_mem_roundabout (count : Nat) : 0 ∉ roundabout count := by
  induction count with
  | zero => decide
  | succ count inductionHypothesis =>
      rw [roundabout, List.mem_cons, List.mem_cons, not_or, not_or]
      exact ⟨by decide, by decide, inductionHypothesis⟩

theorem pieces_roundabout (count : Nat) :
    (SystemPath.pieces (roundabout count)).filterMap SystemPath.component? = [] := by
  induction count with
  | zero => decide
  | succ count inductionHypothesis =>
      have first := SystemPath.pieces_append_slash [SystemPath.dot] (roundabout count)
      rw [List.singleton_append] at first
      rw [roundabout, first, List.filterMap_append, inductionHypothesis]
      decide

/-- However often `./` is repeated, the path is that of the top. -/
theorem components_roundabout (count : Nat) :
    SystemPath.components ⟨roundabout count⟩ = [.current] := by
  cases count with
  | zero => decide
  | succ count =>
      have first := SystemPath.components_append_slash [SystemPath.dot] (roundabout count)
      rw [List.singleton_append, pieces_roundabout, List.append_nil] at first
      rw [roundabout, first]
      decide

/-- The top, spelled with almost four thousand bytes. -/
def farTop : SystemPath := ⟨roundabout 1999⟩

theorem length_farTop : farTop.bytes.length = 3999 := length_roundabout 1999

theorem isUsable_farTop : farTop.IsUsable where
  nonempty := List.ne_nil_of_length_eq_add_one length_farTop
  noNul := zero_not_mem_roundabout 1999
  short := by
    rw [length_farTop]
    decide

theorem longestPath_lt_length_join_farTop :
    longestPath < (farTop.join longName).bytes.length := by
  have length : longName.bytes.length = 200 := List.length_replicate
  obtain ⟨front, whole, spelled⟩ := farTop.exists_bytes_join longName
  have atLeast : 3999 ≤ front.length := by
    rcases spelled with rfl | rfl
    · exact Nat.le_of_eq length_farTop.symm
    · rw [List.length_append, length_farTop]
      exact Nat.le_add_right ..
  rw [whole, List.length_append, length, longestPath]
  omega

/-- The top is the same place in whatever way it is spelled. -/
theorem hasExtension_descend_farTop
    {names : List FileName} (areNames : ∀ name ∈ names, IsFileName name) :
    hasExtension (farTop.descend names) = hasExtension ((SystemPath.ofText ".").descend names) := by
  have sameTop : farTop.components = SystemPath.components (.ofText ".") :=
    components_roundabout 1999
  apply hasExtension_congr
  rw [SystemPath.components_descend areNames, SystemPath.components_descend areNames, sameTop]

theorem leads_cabinet (name : FileName) : (cabinet name).Leads [name, "a.sh"] (.file []) :=
  .down List.mem_cons_self (.entry List.mem_cons_self)

theorem isProper_cabinet {name : FileName} (isName : IsFileName name) : (cabinet name).IsProper :=
  isProper_single isName (isProper_single (by decide) (FileTree.isProper_file _))

theorem locate_top (name : FileName) :
    (cabinet name).files.locate (.ofText ".") = .ok (cabinet name) :=
  locate_of_components_eq_current ⟨by decide, by decide, by decide⟩ (by decide)

theorem readable_cabinet
    {name : FileName} (isName : IsFileName name) (usable : name.IsUsable)
    (fits : (SystemPath.join (.ofText ".") name).bytes.length ≤ longestPath)
    (scriptFits : ((SystemPath.join (.ofText ".") name).join "a.sh").bytes.length ≤ longestPath) :
    Readable (cabinet name).files (backwards (cabinet name).files) (.ofText ".")
      (cabinet name) := by
  refine readable_backwards (locate_top name) fun entry member => ?_
  cases List.mem_singleton.mp member
  have located := locate_join (locate_top name) name (if_pos rfl) isName usable fits
  refine readable_backwards located fun entry member => ?_
  cases List.mem_singleton.mp member
  exact .file (locate_join located "a.sh" rfl (by decide) ⟨by decide, by decide⟩ scriptFits)

/-- A directory can be walked although its name starts with a dot: this one is no text. And a script
can be missed although no name on the way to it starts with a dot: from some spelling of the root,
the path of its directory is too long to be followed. -/
theorem walk_unlike_first_bytes :
    ((cabinet unreadableName).IsProper ∧
      Readable (cabinet unreadableName).files (backwards (cabinet unreadableName).files)
          (.ofText ".") (cabinet unreadableName) ∧
        (cabinet unreadableName).Leads [unreadableName, "a.sh"] (.file []) ∧
          ¬ ((SystemPath.ofText ".").descend [unreadableName, "a.sh"] ∈
                walk (cabinet unreadableName).files (.ofText ".") ↔
              IsPlainScript (.ofText ".") [unreadableName, "a.sh"] [])) ∧
      (cabinet longName).IsProper ∧
        Readable (cabinet longName).files (backwards (cabinet longName).files) (.ofText ".")
            (cabinet longName) ∧
          (cabinet longName).files.locate farTop = .ok (cabinet longName) ∧
            (cabinet longName).Leads [longName, "a.sh"] (.file []) ∧
              ¬ (farTop.descend [longName, "a.sh"] ∈ walk (cabinet longName).files farTop ↔
                IsPlainScript farTop [longName, "a.sh"] []) := by
  constructor
  · have isName : IsFileName unreadableName := by decide
    have readable :=
      readable_cabinet isName ⟨by decide, by decide⟩ (by decide) (by decide)
    refine ⟨isProper_cabinet isName, readable, leads_cabinet _, fun same => ?_⟩
    have visible : ∀ name ∈ [unreadableName, "a.sh"].dropLast, isHidden name = false := by
      decide +kernel
    have isScript :
        isScriptAt (cabinet unreadableName).files
          ((SystemPath.ofText ".").descend [unreadableName, "a.sh"]) = true :=
      Bool.or_eq_true_iff.mpr (.inl (by decide +kernel))
    have shows := readable.shows_iff.mpr ⟨[], leads_cabinet _, visible, isScript⟩
    have plain := same.mp ((mem_walk_iff (locate_top _)).mpr ⟨_, shows, rfl⟩)
    exact plain.1 unreadableName List.mem_cons_self (by decide)
  · have isName : IsFileName longName := by decide +kernel
    have readable :=
      readable_cabinet isName ⟨by decide +kernel, by decide +kernel⟩ (by decide +kernel)
        (by decide +kernel)
    have located : (cabinet longName).files.locate farTop = .ok (cabinet longName) :=
      locate_of_components_eq_current isUsable_farTop (components_roundabout 1999)
    have areNames := (leads_cabinet longName).isFileName (isProper_cabinet isName)
    refine ⟨isProper_cabinet isName, readable, located, leads_cabinet _, fun same => ?_⟩
    have plain : IsPlainScript farTop [longName, "a.sh"] [] := by
      refine ⟨by decide +kernel, .inl ?_⟩
      rw [hasExtension_descend_farTop areNames]
      decide +kernel
    obtain ⟨names, shows, _⟩ := (mem_walk_iff located).mp (same.mpr plain)
    obtain ⟨reason, missing⟩ :=
      exists_error_of_locate (cabinet longName) longestPath_lt_length_join_farTop
    cases shows with
    | script member _ isScript =>
        cases List.mem_singleton.mp member
        have moved :
            hasExtension (farTop.descend [longName]) =
              hasExtension ((SystemPath.ofText ".").descend [longName]) :=
          hasExtension_descend_farTop fun name member =>
            areNames name (List.mem_append_left [_] member)
        rw [SystemPath.descend, List.foldl_cons, List.foldl_nil] at moved
        rw [isScriptAt_of_locate_eq_error missing, moved] at isScript
        exact absurd isScript (by decide +kernel)
    | deeper member isDirectory _ _ =>
        cases List.mem_singleton.mp member
        rw [Files.leadsToDirectory, missing] at isDirectory
        cases isDirectory

end Script

end Heredoc
