import Heredoc.Proofs.Scan.Concatenation
import Heredoc.Proofs.Scan.Marker
import Heredoc.Proofs.Tag.Order
import Mathlib.Data.List.Forall2

/-!
# Scripts written block by block

A block is a heredoc as it is written: a marker line in one of its spellings, body lines and the
line that ends it. Main statement: a scan of blocks that follow each other gives one region for
each, with its tag and its body, whatever the bodies look like (`Scan.scan_blocks`).
-/

namespace Heredoc

/-- A heredoc as it is written. -/
structure Block where
  tag : String
  /-- What stands in front of `<<`. -/
  before : List Char
  dash : List Char
  blanks : List Char
  quote : List Char
  /-- What follows the tag on the marker line. -/
  after : List Char
  body : List String
  /-- The white space in front of the tag on the last line. -/
  indent : List Char
  trail : List Char
  before_single : ¬ ['<', '<'] <:+: before
  before_ends : before.getLast? ≠ some '<'
  introducer : Marker.IsIntroducer dash blanks quote
  after_bounded : ∀ c, after.head? = some c → Marker.isWordChar c = false
  body_unended : ∀ line ∈ body, Text.trim line.toList ≠ tag.toList
  indent_blank : ∀ c ∈ indent, Text.isBlank c = true
  trail_blank : ∀ c ∈ trail, Text.isBlank c = true

namespace Block

/-- The line that opens the block. -/
def marker (block : Block) : String :=
  String.ofList
    (block.before ++ '<' :: '<' ::
      (block.dash ++ (block.blanks ++ (block.quote ++ (block.tag.toList ++ block.after)))))

/-- The line that ends the block. -/
def terminator (block : Block) : String :=
  String.ofList (block.indent ++ (block.tag.toList ++ block.trail))

/-- All lines of a block. -/
def lines (block : Block) : List String :=
  block.marker :: (block.body ++ [block.terminator])

variable {tags : List String} {block : Block}

theorem start?_marker
    (words : ∀ tag ∈ tags, Marker.IsWord tag) (member : block.tag ∈ tags) :
    Marker.start? tags block.marker = some block.tag :=
  Marker.start?_written words member block.before_single block.before_ends block.introducer
    block.after_bounded

/-- The body is read up to the line that ends it, whatever follows. -/
theorem findIdx?_terminator
    (word : Marker.IsWord block.tag) (more : List String) :
    (block.body ++ [block.terminator] ++ more).findIdx? (Marker.isTerminator · block.tag) =
      some block.body.length := by
  have unended :
      block.body.findIdx? (Marker.isTerminator · block.tag) = none := by
    refine List.findIdx?_eq_none_iff.mpr ?_
    intro line member
    exact decide_eq_false (block.body_unended line member)
  have ended : Marker.isTerminator block.terminator block.tag = true :=
    Marker.isTerminator_written word block.indent_blank block.trail_blank
  rw [List.append_assoc, List.findIdx?_append, unended, Option.none_or, List.singleton_append,
    List.findIdx?_cons, if_pos ended, Option.map_some, Nat.zero_add]

theorem regionsFrom_lines_append
    (words : ∀ tag ∈ tags, Marker.IsWord tag) (member : block.tag ∈ tags)
    (start : Nat) (more : List String) :
    Scan.regionsFrom tags start (block.lines ++ more) =
      ⟨block.tag, start + 1, start + 1 + block.body.length⟩ ::
        Scan.regionsFrom tags (start + block.lines.length) more := by
  have total : (block.body ++ [block.terminator]).length = block.body.length + 1 :=
    List.length_append
  rw [lines, List.cons_append,
    Scan.regionsFrom_cons_of_ended (start?_marker words member)
      (findIdx?_terminator (words block.tag member) more),
    ← total, List.drop_left, List.length_cons, total]
  congr 2
  omega

end Block

namespace Scan

/-- The region is the body of the block. -/
structure Holds (document : Document) (block : Block) (region : Region) : Prop where
  tag : region.tag = block.tag
  body : document.bodyLines region = block.body
  text : document.view.bodyText region = Text.joinLines block.body

theorem holds_of_lines
    {document : Document} {block : Block} {earlier later : List String}
    (written : document.lines = earlier ++ block.lines ++ later) :
    Holds document block
      ⟨block.tag, earlier.length + 1, earlier.length + 1 + block.body.length⟩ := by
  have total : document.lines.length = earlier.length + (block.body.length + 2) + later.length := by
    rw [written, List.length_append, List.length_append, Block.lines, List.length_cons,
      List.length_append, List.length_singleton]
  have body :
      document.bodyLines ⟨block.tag, earlier.length + 1, earlier.length + 1 + block.body.length⟩ =
        block.body := by
    rw [Document.bodyLines, written, Block.lines, List.append_assoc]
    dsimp only
    rw [Nat.add_assoc, Nat.add_comm 1, List.take_length_add_append, List.drop_length_add_append,
      List.cons_append, List.take_succ_cons, List.drop_succ_cons, List.drop_zero,
      List.append_assoc, List.take_left]
  refine ⟨rfl, body, ?_⟩
  rw [Document.bodyText_view, body]
  dsimp only
  omega

theorem forall₂_holds
    {tags : List String} {document : Document} {blocks : List Block} {earlier : List String}
    (words : ∀ tag ∈ tags, Marker.IsWord tag) (members : ∀ block ∈ blocks, block.tag ∈ tags)
    (written : document.lines = earlier ++ blocks.flatMap Block.lines) :
    List.Forall₂ (Holds document) blocks
      (regionsFrom tags earlier.length (blocks.flatMap Block.lines)) := by
  induction blocks generalizing earlier with
  | nil =>
      rw [List.flatMap_nil, regionsFrom]
      exact .nil
  | cons block rest inductionHypothesis =>
      rw [List.flatMap_cons, ← List.append_assoc] at written
      have restHolds :=
        inductionHypothesis (fun other member => members other (List.mem_cons_of_mem block member))
          written
      rw [List.length_append] at restHolds
      rw [List.flatMap_cons,
        Block.regionsFrom_lines_append words (members block List.mem_cons_self)]
      exact .cons (holds_of_lines written) restHolds

/-- Every heredoc that is written in a supported form is found with its body, whatever the bodies
look like. -/
theorem scan_blocks
    (table : TagTable) (words : ∀ tag ∈ table.tags, Marker.IsWord tag)
    (blocks : List Block) (known : ∀ block ∈ blocks, table.contains block.tag = true)
    (document : Document) (written : document.lines = blocks.flatMap Block.lines) :
    ∃ regions,
      scan table document.view = .ok regions ∧
        List.Forall₂ (Holds document) blocks regions := by
  have members : ∀ block ∈ blocks, block.tag ∈ table.tags :=
    fun block member => TagTable.mem_tags_iff.mpr (known block member)
  have fromStart : document.lines = [] ++ blocks.flatMap Block.lines := written
  have all := forall₂_holds words members fromStart
  rw [← written] at all
  exact ⟨_, document.scan_view table, all⟩

/-- Two tags, one of which the other begins with. -/
def nestedTags : TagTable := ⟨[("PYTHON", "python"), ("PY", "python")]⟩

/-- A block whose body looks like a heredoc of the longer tag. -/
def deceptive : Block where
  tag := "PY"
  before := "a < b; cat ".toList
  dash := ['-']
  blanks := [' ', '\t']
  quote := ['\'']
  after := "' # check".toList
  body := ["cat <<PYTHON", "PYTHON", "PY;"]
  indent := ['\t']
  trail := ['\u3000']
  before_single := by decide
  before_ends := by decide
  introducer := ⟨.inr rfl, fun _ member => List.mem_pair.mp member, .inr (.inl rfl)⟩
  after_bounded := by
    rintro c first
    obtain rfl : '\'' = c := Option.some.inj first
    decide
  body_unended := by decide +kernel
  indent_blank := List.all_eq_true.mp (by decide)
  trail_blank := List.all_eq_true.mp (by decide)

/-- A block of the longer tag, without a body. -/
def bare : Block where
  tag := "PYTHON"
  before := []
  dash := []
  blanks := []
  quote := []
  after := []
  body := []
  indent := []
  trail := []
  before_single := by decide
  before_ends := by decide
  introducer := ⟨.inl rfl, by simp, .inl rfl⟩
  after_bounded := by simp
  body_unended := by simp
  indent_blank := by simp
  trail_blank := by simp

theorem scan_blocks_deceptive :
    let document : Document := ⟨"a.sh", 1, deceptive.lines ++ bare.lines⟩
    deceptive.marker = "a < b; cat <<- \t'PY' # check" ∧
      ∃ first second,
        scan nestedTags document.view = .ok [first, second] ∧
          (first.tag = "PY" ∧ document.view.bodyText first = "cat <<PYTHON\nPYTHON\nPY;") ∧
            second.tag = "PYTHON" ∧ document.view.bodyText second = "" := by
  intro document
  have tags : nestedTags.tags = ["PYTHON", "PY"] := List.mergeSort_of_pairwise (by decide)
  have words : ∀ tag ∈ nestedTags.tags, Marker.IsWord tag := by
    rw [tags]
    intro tag member
    rcases List.mem_pair.mp member with rfl | rfl
    · exact ⟨by decide, List.all_eq_true.mp (by decide)⟩
    · exact ⟨by decide, List.all_eq_true.mp (by decide)⟩
  have known : ∀ block ∈ [deceptive, bare], nestedTags.contains block.tag = true := by
    intro block member
    rcases List.mem_pair.mp member with rfl | rfl
    · decide
    · decide
  have written : document.lines = [deceptive, bare].flatMap Block.lines := by
    rw [List.flatMap_cons, List.flatMap_singleton]
  obtain ⟨regions, found, all⟩ :=
    scan_blocks nestedTags words [deceptive, bare] known document written
  rcases all with _ | ⟨first, _ | ⟨second, _ | _⟩⟩
  refine ⟨by decide +kernel, _, _, found, ⟨first.tag, ?_⟩, second.tag, ?_⟩
  · rw [first.text]
    decide +kernel
  · rw [second.text]
    decide +kernel

end Scan

end Heredoc
