import Heredoc.Proofs.Assoc.Keys
import Heredoc.Proofs.Script.Paths

/-!
# Following paths in a tree

Names lead from a tree down to what is in it. In a tree whose directories have proper and distinct
names, a way down is a path in the sense of its components.

Main statements: what a path leads to, in terms of its components (`FileTree.resolve_eq_ok_iff`),
and that a path joined with a name leads on to what has the name, unless it gets too long
(`FileTree.locate_join`).
-/

namespace Heredoc

namespace FileTree

/-- The names lead down from the tree to something in it. -/
inductive Leads : FileTree → List FileName → FileTree → Prop
  | here (tree : FileTree) : Leads tree [] tree
  | down {entries : List (FileName × FileTree)} {name : FileName} {child below : FileTree}
      {names : List FileName} :
      (name, child) ∈ entries → Leads child names below →
        Leads (.directory entries) (name :: names) below

theorem sizeOf_lt_of_mem
    {entries : List (FileName × FileTree)} {name : FileName} {child : FileTree}
    (member : (name, child) ∈ entries) :
    sizeOf child < sizeOf (FileTree.directory entries) := by
  have smaller := List.sizeOf_lt_of_mem member
  simp only [Prod.mk.sizeOf_spec, FileTree.directory.sizeOf_spec] at smaller ⊢
  omega

/-- Every directory in the tree has distinct names, which files can have. -/
structure IsProper (tree : FileTree) : Prop where
  distinct :
    ∀ names entries,
      tree.Leads names (.directory entries) → (Assoc.keys entries).Nodup
  named :
    ∀ names entries name child,
      tree.Leads names (.directory entries) → (name, child) ∈ entries → IsFileName name

theorem IsProper.isFileName
    {entries : List (FileName × FileTree)} {entry : FileName × FileTree}
    (proper : (FileTree.directory entries).IsProper) (member : entry ∈ entries) :
    IsFileName entry.1 :=
  proper.named [] entries entry.1 entry.2 (.here _) member

/-! ## Ways down -/

namespace Leads

variable {tree middle below : FileTree} {names more : List FileName}

theorem append (first : tree.Leads names middle) (second : middle.Leads more below) :
    tree.Leads (names ++ more) below := by
  induction first with
  | here tree => exact second
  | down member _ inductionHypothesis => exact .down member (inductionHypothesis second)

theorem isProper (leads : tree.Leads names below) (proper : tree.IsProper) : below.IsProper where
  distinct _ _ further := proper.distinct _ _ (leads.append further)
  named _ _ _ _ further member := proper.named _ _ _ _ (leads.append further) member

theorem entry
    {entries : List (FileName × FileTree)} {entry : FileName × FileTree}
    (member : entry ∈ entries) :
    (FileTree.directory entries).Leads [entry.1] entry.2 :=
  .down member (.here _)

theorem isFileName (leads : tree.Leads names below) (proper : tree.IsProper) :
    ∀ name ∈ names, IsFileName name := by
  induction leads with
  | here tree => exact fun _ member => absurd member List.not_mem_nil
  | @down entries name child below names member _ inductionHypothesis =>
      have childProper : child.IsProper := (Leads.down member (.here child)).isProper proper
      intro other otherMember
      rcases List.mem_cons.mp otherMember with rfl | inNames
      · exact proper.named [] entries other child (.here _) member
      · exact inductionHypothesis childProper other inNames

theorem isDirectory_iff {bytes : List UInt8} (leads : tree.Leads names (.file bytes)) :
    tree.isDirectory = true ↔ names ≠ [] := by
  cases leads with
  | here => simp [isDirectory]
  | down => simp [isDirectory]

theorem of_lookup (found : tree.lookup names = some below) : tree.Leads names below := by
  induction names generalizing tree with
  | nil =>
      rw [lookup] at found
      cases found
      exact .here below
  | cons name rest inductionHypothesis =>
      rw [lookup] at found
      obtain ⟨child, present, further⟩ := Option.bind_eq_some_iff.mp found
      cases tree with
      | file bytes => cases present
      | directory entries =>
          exact .down (Assoc.mem_of_get? present) (inductionHypothesis further)

end Leads

theorem isProper_file (bytes : List UInt8) : (FileTree.file bytes).IsProper where
  distinct _ _ leads := by cases leads
  named _ _ _ _ leads := by cases leads

theorem isProper_directory
    {entries : List (FileName × FileTree)}
    (distinct : (Assoc.keys entries).Nodup)
    (each : ∀ entry ∈ entries, IsFileName entry.1 ∧ entry.2.IsProper) :
    (FileTree.directory entries).IsProper where
  distinct _ _ leads := by
    cases leads with
    | here => exact distinct
    | down member further => exact (each _ member).2.distinct _ _ further
  named _ _ _ _ leads inside := by
    cases leads with
    | here => exact (each _ inside).1
    | down member further => exact (each _ member).2.named _ _ _ _ further inside

/-- A directory with one entry. -/
theorem isProper_single
    {name : FileName} {tree : FileTree} (isName : IsFileName name) (proper : tree.IsProper) :
    (FileTree.directory [(name, tree)]).IsProper := by
  refine isProper_directory (List.nodup_singleton name) fun entry member => ?_
  cases List.mem_singleton.mp member
  exact ⟨isName, proper⟩

/-! ## Following a path -/

theorem lookup_append (tree : FileTree) (way names : List FileName) :
    tree.lookup (way ++ names) = (tree.lookup way).bind fun below => below.lookup names := by
  induction way generalizing tree with
  | nil => rw [List.nil_append, lookup, Option.bind_some]
  | cons name rest inductionHypothesis =>
      rw [List.cons_append, lookup, lookup, Option.bind_assoc]
      exact Option.bind_congr fun child _ => inductionHypothesis child

theorem follow_current
    {tree : FileTree} {way : List FileName} {entries : List (FileName × FileTree)}
    (atWay : tree.lookup way = some (.directory entries)) :
    follow tree way .current = .ok way := by
  rw [follow, atWay]

theorem follow_name_eq_ok_iff {tree : FileTree} {way reached : List FileName} {name : FileName} :
    follow tree way (.name name) = .ok reached ↔
      (∃ entries, tree.lookup way = some (.directory entries)) ∧
        name.bytes.length ≤ longestName ∧ reached = way ++ [name] := by
  cases atWay : tree.lookup way with
  | none => simp [follow, atWay]
  | some below =>
      cases below with
      | file bytes => simp [follow, atWay]
      | directory entries =>
          by_cases fits : name.bytes.length ≤ longestName
          · simp [follow, atWay, fits, Nat.not_lt.mpr fits, eq_comm]
          · simp [follow, atWay, fits, Nat.not_le.mp fits]

theorem foldlM_follow_cons
    {tree : FileTree} {way further : List FileName} {component : Component}
    (first : follow tree way component = .ok further) (rest : List Component) :
    (component :: rest).foldlM (follow tree) way = rest.foldlM (follow tree) further := by
  rw [List.foldlM_cons, first]
  rfl

/-- Names that are not too long are followed one by one, as long as there is something to
follow. -/
theorem eq_append_of_follow
    {tree : FileTree} {way reached names : List FileName}
    (followed : (names.map Component.name).foldlM (follow tree) way = .ok reached) :
    reached = way ++ names ∧ ∀ name ∈ names, name.bytes.length ≤ longestName := by
  induction names generalizing way with
  | nil =>
      have same : way = reached := Except.ok.inj followed
      exact ⟨by rw [same, List.append_nil], fun _ member => absurd member List.not_mem_nil⟩
  | cons name rest inductionHypothesis =>
      rw [List.map_cons] at followed
      cases first : follow tree way (.name name) with
      | error reason =>
          rw [List.foldlM_cons, first] at followed
          cases followed
      | ok further =>
          obtain ⟨_, short, rfl⟩ := follow_name_eq_ok_iff.mp first
          rw [foldlM_follow_cons first] at followed
          obtain ⟨reachedRest, restShort⟩ := inductionHypothesis followed
          refine ⟨?_, fun other member => ?_⟩
          · rw [reachedRest, List.append_assoc, List.singleton_append]
          · rcases List.mem_cons.mp member with rfl | later
            · exact short
            · exact restShort other later

end FileTree

/-- A name that the system follows. -/
structure FileName.IsUsable (name : FileName) : Prop where
  short : name.bytes.length ≤ FileTree.longestName
  noNul : 0 ∉ name.bytes

/-- A path that the system follows. -/
structure SystemPath.IsUsable (path : SystemPath) : Prop where
  nonempty : path.bytes ≠ []
  noNul : 0 ∉ path.bytes
  short : path.bytes.length ≤ FileTree.longestPath

theorem SystemPath.IsUsable.join
    {path : SystemPath} {name : FileName} (usable : path.IsUsable) (isName : IsFileName name)
    (usableName : name.IsUsable)
    (short : (path.join name).bytes.length ≤ FileTree.longestPath) :
    (path.join name).IsUsable where
  nonempty empty := by
    obtain ⟨front, whole, _⟩ := path.exists_bytes_join name
    rw [whole] at empty
    exact isName.nonempty (List.append_eq_nil_iff.mp empty).2
  noNul member := by
    rcases SystemPath.mem_bytes_join member with inPath | isSlash | inName
    · exact usable.noNul inPath
    · exact absurd isSlash (by decide)
    · exact usableName.noNul inName
  short := short

namespace FileTree

theorem resolve_eq_ok_iff {tree found : FileTree} {path : SystemPath} :
    tree.resolve path = .ok found ↔
      path.IsUsable ∧
        ∃ way,
          path.components.foldlM (follow tree) [] = .ok way ∧ tree.lookup way = some found ∧
            (path.mustBeDirectory = true → found.isDirectory = true) := by
  constructor
  · intro resolved
    unfold resolve at resolved
    dsimp only at resolved
    split at resolved
    · cases resolved
    rename_i nonempty
    split at resolved
    · cases resolved
    rename_i noNul
    split at resolved
    · cases resolved
    rename_i short
    refine ⟨⟨nonempty, noNul, Nat.not_lt.mp short⟩, ?_⟩
    cases followed : path.components.foldlM (follow tree) [] with
    | error reason =>
        rw [followed] at resolved
        cases resolved
    | ok way =>
        rw [followed] at resolved
        dsimp only [bind, Except.bind] at resolved
        cases atWay : tree.lookup way with
        | none =>
            rw [atWay] at resolved
            cases resolved
        | some below =>
            rw [atWay] at resolved
            dsimp only at resolved
            split at resolved
            · cases resolved
            · rename_i kind
              cases resolved
              exact ⟨way, rfl, atWay, by simpa using kind⟩
  · rintro ⟨usable, way, followed, atWay, kind⟩
    unfold resolve
    dsimp only
    rw [if_neg usable.nonempty, if_neg usable.noNul, if_neg (Nat.not_lt.mpr usable.short),
      followed]
    dsimp only [bind, Except.bind]
    rw [atWay]
    exact if_neg (by simpa using kind)

/-- The path of a directory, joined with a name in it, leads to what has the name there. -/
theorem locate_join
    {tree child : FileTree} {path : SystemPath} {entries : List (FileName × FileTree)}
    (located : tree.files.locate path = .ok (.directory entries))
    (name : FileName) (inside : Assoc.get? entries name = some child)
    (isName : IsFileName name) (usableName : name.IsUsable)
    (fits : (path.join name).bytes.length ≤ longestPath) :
    tree.files.locate (path.join name) = .ok child := by
  obtain ⟨usable, way, followed, atWay, _⟩ := resolve_eq_ok_iff.mp located
  have followedOn :
      (path.join name).components.foldlM (follow tree) [] = .ok (way ++ [name]) := by
    have last : follow tree way (.name name) = .ok (way ++ [name]) :=
      follow_name_eq_ok_iff.mpr ⟨⟨entries, atWay⟩, usableName.short, rfl⟩
    rw [SystemPath.components_join isName, List.foldlM_append, followed]
    exact foldlM_follow_cons last []
  have atName : tree.lookup (way ++ [name]) = some child := by
    rw [lookup_append, atWay, Option.bind_some, lookup, FileTree.entries, inside,
      Option.bind_some, lookup]
  have usableOn : (path.join name).IsUsable := usable.join isName usableName fits
  refine resolve_eq_ok_iff.mpr ⟨usableOn, _, followedOn, atName, fun mustBe => ?_⟩
  rw [SystemPath.mustBeDirectory_join isName] at mustBe
  cases mustBe

/-- The path of the top of a tree, in whatever way it is spelled. -/
theorem locate_of_components_eq_current
    {entries : List (FileName × FileTree)} {path : SystemPath} (usable : path.IsUsable)
    (atTop : path.components = [.current]) :
    (FileTree.directory entries).files.locate path = .ok (.directory entries) := by
  have top : (FileTree.directory entries).lookup [] = some (.directory entries) := by rw [lookup]
  refine resolve_eq_ok_iff.mpr ⟨usable, [], ?_, top, fun _ => rfl⟩
  rw [atTop, foldlM_follow_cons (follow_current top)]
  rfl

theorem exists_error_of_locate
    (tree : FileTree) {path : SystemPath} (long : longestPath < path.bytes.length) :
    ∃ reason, tree.files.locate path = .error reason := by
  cases located : tree.files.locate path with
  | error reason => exact ⟨reason, rfl⟩
  | ok found =>
      exact absurd (resolve_eq_ok_iff.mp located).1.short (Nat.not_le.mpr long)

/-- What a path leads to beyond a directory is looked up in that directory. The names on the way are
followed by the system. -/
theorem lookup_of_resolve
    {tree top found : FileTree} {root path : SystemPath} {names : List FileName}
    (start : tree.resolve root = .ok top) (resolved : tree.resolve path = .ok found)
    (below : path.components = root.components ++ names.map Component.name) :
    top.lookup names = some found ∧ ∀ name ∈ names, name.IsUsable := by
  obtain ⟨_, way, followed, atTop, _⟩ := resolve_eq_ok_iff.mp start
  obtain ⟨usable, reached, followedOn, atFound, _⟩ := resolve_eq_ok_iff.mp resolved
  rw [below, List.foldlM_append, followed] at followedOn
  obtain ⟨rfl, short⟩ := eq_append_of_follow followedOn
  rw [lookup_append, atTop, Option.bind_some] at atFound
  refine ⟨atFound, fun name member => ⟨short name member, fun zero => usable.noNul ?_⟩⟩
  refine SystemPath.mem_bytes_of_mem_components ?_ zero
  rw [below]
  exact List.mem_append_right _ (List.mem_map_of_mem member)

end FileTree

/-! ## Reading files -/

namespace Files

theorem leadsToDirectory_of_locate
    {files : Files} {path : SystemPath} {tree : FileTree} (located : files.locate path = .ok tree) :
    files.leadsToDirectory path = tree.isDirectory := by
  rw [leadsToDirectory, located]
  rfl

/-- A file is read exactly if its bytes are text. -/
theorem readText_eq_ok_iff {files : Files} {path : SystemPath} {text : String} :
    files.readText path = .ok text ↔
      ∃ bytes, files.locate path = .ok (.file bytes) ∧ Text.decode? bytes = some text := by
  cases located : files.locate path with
  | error reason =>
      have failed : files.readText path = .error reason := by
        rw [readText, readBytes, located]
        rfl
      simp [failed]
  | ok tree =>
      cases tree with
      | directory entries =>
          have failed : files.readText path = .error .isDirectory := by
            rw [readText, readBytes, located]
            rfl
          simp [failed]
      | file bytes =>
          have read : files.readBytes path = .ok bytes := by
            rw [readBytes, located]
            rfl
          cases isText : Text.decode? bytes with
          | none =>
              have failed : files.readText path = .error .notText := by
                rw [readText, read]
                dsimp only [bind, Except.bind]
                rw [isText]
                rfl
              simp [failed, isText]
          | some found =>
              have succeeded : files.readText path = .ok found := by
                rw [readText, read]
                dsimp only [bind, Except.bind]
                rw [isText]
                rfl
              simp [succeeded, isText]

theorem toOption_readText
    {files : Files} {path : SystemPath} {bytes : List UInt8}
    (located : files.locate path = .ok (.file bytes)) :
    (files.readText path).toOption = Text.decode? bytes := by
  cases isText : Text.decode? bytes with
  | some text => rw [readText_eq_ok_iff.mpr ⟨bytes, located, isText⟩, Except.toOption]
  | none =>
      cases read : files.readText path with
      | error reason => rfl
      | ok text =>
          obtain ⟨others, sameFile, isOther⟩ := readText_eq_ok_iff.mp read
          rw [located] at sameFile
          cases sameFile
          rw [isText] at isOther
          cases isOther

end Files

end Heredoc
