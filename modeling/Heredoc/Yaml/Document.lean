import Heredoc.Yaml.Event

/-!
# YAML documents

A stream is a list of documents, each with its own anchors. A document that breaks off keeps what
was read of it together with the problem.
-/

namespace Heredoc.Yaml

/-- A part of a document; references name an anchor by its number. -/
inductive Part where
  | reference (anchor : Nat)
  | scalar (text : String) (style : ScalarStyle) (tag : Option NodeTag)
  | sequenceStart (tag : Option NodeTag)
  | sequenceEnd
  | mappingStart (tag : Option NodeTag)
  | mappingEnd
  /-- All there is in an empty stream. -/
  | nothing
deriving DecidableEq, Repr

/-- The parts of a document, where each anchor points, and the problem at which it breaks off. -/
structure Document where
  parts : Array (Part × Mark)
  /-- The index of the part that an anchor number stands for. -/
  anchors : Assoc Nat Nat
  problem : Option Problem
deriving Repr

namespace Document

/-- The document before its first part. -/
def empty : Document := ⟨#[], [], none⟩

/-- Adds a part. -/
def push (document : Document) (part : Part) (mark : Mark) : Document :=
  { document with parts := document.parts.push (part, mark) }

/-- Lets an anchor number stand for the part that comes next. -/
def setAnchor (document : Document) (number : Nat) : Document :=
  { document with anchors := document.anchors.put number document.parts.size }

end Document

/-- A document that is being read, with the numbers of its anchor names. A name gets as number
how many names are known, also when it is given again. -/
structure Draft where
  document : Document
  names : Assoc String Nat

namespace Draft

/-- The draft before its first part. -/
def empty : Draft := ⟨.empty, []⟩

/-- Adds a part that may have an anchor. -/
def push (draft : Draft) (anchor : Option String) (part : Part) (mark : Mark) : Draft :=
  match anchor with
  | none => { draft with document := draft.document.push part mark }
  | some name =>
      let number := draft.names.length
      { document := (draft.document.setAnchor number).push part mark
        names := draft.names.put name number }

/-- Breaks the document off. -/
def breakOff (draft : Draft) (problem : Option Problem) : Document :=
  { draft.document with problem }

end Draft

/-- The documents that begin with a draft; `first` says whether there was none before. -/
def documentsFrom (problem : Option Problem) (first : Bool) (draft : Draft) :
    List Event → List Document
  | [] => [draft.breakOff problem]
  | event :: rest =>
      let add (anchor : Option String) (part : Part) : List Document :=
        documentsFrom problem first (draft.push anchor part event.mark) rest
      match event.kind with
      | .streamEnd =>
          if !first then []
          else if draft.document.parts.isEmpty then [draft.document.push .nothing event.mark]
          else [draft.document]
      | .documentStart => documentsFrom problem first draft rest
      | .documentEnd => draft.document :: documentsFrom problem false .empty rest
      | .reference name =>
          match draft.names.get? name with
          | some number => add none (.reference number)
          | none => [draft.breakOff (some { cause := .unknownAnchor, mark := event.mark })]
      | .scalar text style anchor tag => add anchor (.scalar text style tag)
      | .sequenceStart anchor tag => add anchor (.sequenceStart tag)
      | .sequenceEnd => add none .sequenceEnd
      | .mappingStart anchor tag => add anchor (.mappingStart tag)
      | .mappingEnd => add none .mappingEnd

/-- The documents of a stream. -/
def documents (text : List Char) : List Document :=
  let (events, problem) := events text
  documentsFrom problem true .empty events

end Heredoc.Yaml
