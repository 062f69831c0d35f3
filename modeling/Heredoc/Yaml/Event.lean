import Heredoc.Assoc
import Heredoc.Yaml.Token

/-!
# YAML events

The nodes of a stream in the order in which they begin and end. Each step of a `Composer` looks
at the next tokens and at what is awaited, and gives one event; collections that are open wait
on a stack.
-/

namespace Heredoc.Yaml

/-- What an event is. -/
inductive EventKind where
  | streamEnd
  | documentStart
  | documentEnd
  | reference (name : String)
  | scalar (text : String) (style : ScalarStyle) (anchor : Option String) (tag : Option NodeTag)
  | sequenceStart (anchor : Option String) (tag : Option NodeTag)
  | sequenceEnd
  | mappingStart (anchor : Option String) (tag : Option NodeTag)
  | mappingEnd
deriving DecidableEq, Repr

/-- An event and where it begins. -/
structure Event where
  kind : EventKind
  mark : Mark
deriving Repr

/-- What comes next in the grammar; an open collection knows where it began. -/
inductive Awaiting where
  /-- A document; after the first one it has to be announced. -/
  | document (announced : Bool)
  /-- The node of a document without a start marker. -/
  | root
  /-- The node of a document after its start marker. -/
  | content
  | documentEnd
  | blockEntry (began : Mark)
  /-- An entry of a sequence that is indented no deeper than its key. -/
  | bareEntry
  | blockKey (began : Mark)
  | blockValue (began : Mark)
  | flowEntry (first : Bool) (began : Mark)
  /-- The key of a pair that stands alone in a flow sequence. -/
  | pairKey (began : Mark)
  | pairValue (began : Mark)
  | pairEnd (began : Mark)
  | flowKey (first : Bool) (began : Mark)
  | flowValue (began : Mark)
  /-- The missing value of a key that stands alone in a flow mapping. -/
  | flowNoValue (began : Mark)
  | finished
deriving DecidableEq, Repr

/-- Why no further event is given. -/
inductive Halt where
  | finished
  | outOfTokens
  | problem (problem : Problem)
deriving Repr

/-- A composition of tokens to events. -/
structure Composer where
  tokens : List Token
  awaiting : Awaiting
  outer : List Awaiting
  /-- What each tag handle of the document stands for. -/
  handles : Assoc String Octets
deriving Repr

/-- A step gives one event, or stops. -/
abbrev ComposeStep := Except Halt (Event × Composer)

namespace Composer

/-- The composition before the first event; the token for the start of the stream is passed. -/
def start (tokens : List Token) : Composer :=
  { tokens := tokens.tail, awaiting := .document false, outer := [], handles := [] }

/-- The composition with these tokens left. -/
def after (composer : Composer) (tokens : List Token) : Composer :=
  { composer with tokens }

/-- The next token and those after it. -/
def next (composer : Composer) : Except Halt (Token × List Token) :=
  match composer.tokens with
  | [] => .error .outOfTokens
  | token :: rest => .ok (token, rest)

/-- Goes on with what the innermost open collection awaits. -/
def resume (composer : Composer) : Composer :=
  match composer.outer with
  | [] => { composer with awaiting := .finished }
  | awaiting :: outer => { composer with awaiting, outer }

/-- Puts off what is awaited after the node that comes now. -/
def defer (composer : Composer) (awaiting : Awaiting) : Composer :=
  { composer with outer := awaiting :: composer.outer }

/-- An empty scalar, and what is awaited after it. -/
def emptyScalar (composer : Composer) (awaiting : Awaiting) (mark : Mark) :
    Event × Composer :=
  (⟨.scalar "" .plain none none, mark⟩, { composer with awaiting })

/-- Stops with a problem at a token. -/
def failDuring {α : Type} (activity : Activity) (began : Mark) (cause : Cause) (token : Token) :
    Except Halt α :=
  .error (.problem (.during activity began cause token.start))

/-! ## Nodes -/

/-- What may stand before a node: its anchor, its tag as written with its place, and the place
where the node begins. -/
structure Properties where
  anchor : Option String
  tag : Option (String × Octets × Mark)
  start : Mark

/-- Reads the properties of a node; gives also the token behind them. -/
def readProperties (composer : Composer) : Except Halt (Properties × Token × List Token) := do
  let (first, rest) ← composer.next
  match first.kind with
  | .anchor name =>
      let (second, rest) ← (composer.after rest).next
      match second.kind with
      | .tag handle suffix =>
          let (third, rest) ← (composer.after rest).next
          return (⟨some name, some (handle, suffix, second.start), first.start⟩, third, rest)
      | _ => return (⟨some name, none, first.start⟩, second, rest)
  | .tag handle suffix =>
      let tag := some (handle, suffix, first.start)
      let (second, rest) ← (composer.after rest).next
      match second.kind with
      | .anchor name =>
          let (third, rest) ← (composer.after rest).next
          return (⟨some name, tag, first.start⟩, third, rest)
      | _ => return (⟨none, tag, first.start⟩, second, rest)
  | _ => return (⟨none, none, first.start⟩, first, rest)

/-- The tag of a node, with its handle replaced by what it stands for. -/
def resolveTag (composer : Composer) (properties : Properties) : Except Halt (Option NodeTag) :=
  match properties.tag with
  | none => .ok none
  | some (handle, suffix, mark) =>
      if handle.isEmpty then .ok (some (.ofOctets suffix))
      else match composer.handles.get? handle with
        | some front => .ok (some (.ofOctets (front ++ suffix)))
        | none =>
            .error (.problem (.during .node properties.start .undefinedHandle mark))

/-- Reads a node. `block` says whether it may be a block collection, `bare` whether it may be a
sequence that is indented no deeper than its key. -/
def node (block bare : Bool) (composer : Composer) : ComposeStep := do
  let (first, afterFirst) ← composer.next
  if let .reference name := first.kind then
    return (⟨.reference name, first.start⟩, (composer.after afterFirst).resume)
  let (properties, token, rest) ← composer.readProperties
  let tag ← composer.resolveTag properties
  let anchor := properties.anchor
  let event (kind : EventKind) : Event := ⟨kind, properties.start⟩
  let collection (kind : EventKind) (awaiting : Awaiting) : Event × Composer :=
    (event kind, { composer with tokens := rest, awaiting })
  let otherwise : ComposeStep :=
    if anchor.isSome || tag.isSome then
      .ok (event (.scalar "" .plain anchor tag),
        (composer.after (token :: rest)).resume)
    else
      failDuring (if block then .blockNode else .flowNode) properties.start .missingNode token
  match token.kind with
  | .blockEntry =>
      if bare then
        return (event (.sequenceStart anchor tag),
          { composer with tokens := token :: rest, awaiting := .bareEntry })
      else otherwise
  | .scalar text style =>
      return (event (.scalar text style anchor tag), (composer.after rest).resume)
  | .flowSequenceStart =>
      return collection (.sequenceStart anchor tag) (.flowEntry true token.start)
  | .flowMappingStart =>
      return collection (.mappingStart anchor tag) (.flowKey true token.start)
  | .blockSequenceStart =>
      if block then
        return collection (.sequenceStart anchor tag) (.blockEntry token.start)
      else otherwise
  | .blockMappingStart =>
      if block then
        return collection (.mappingStart anchor tag) (.blockKey token.start)
      else otherwise
  | _ => otherwise

/-! ## Documents -/

/-- The handles that every document knows. -/
def standardHandles : Assoc String Octets :=
  [("!", octetsOf ['!']), ("!!", octetsOf NodeTag.coreFront.toList)]

/-- Reads directives; `version` says whether a version was given. -/
def directives (version : Bool) (handles : Assoc String Octets) :
    List Token → Except Halt (Assoc String Octets × Token × List Token)
  | [] => .error .outOfTokens
  | token :: rest =>
      let fail (cause : Cause) : Except Halt (Assoc String Octets × Token × List Token) :=
        .error (.problem { cause, mark := token.start })
      match token.kind with
      | .version major minor =>
          if version then fail .repeatedVersion
          else if major ≠ 1 ∨ (minor ≠ 1 ∧ minor ≠ 2) then fail .unsupportedVersion
          else directives true handles rest
      | .tagDirective handle front =>
          if handles.contains handle then fail .repeatedTagDirective
          else directives version (handles.put handle front) rest
      | _ =>
          let missing := standardHandles.filter fun pair => !handles.contains pair.1
          .ok (handles ++ missing, token, rest)

/-- Starts a document, or ends the stream. -/
def documentStart (announced : Bool) (composer : Composer) : ComposeStep := do
  let tokens :=
    if announced then composer.tokens.dropWhile fun token => token.kind == .documentEnd
    else composer.tokens
  let composer := { composer with tokens }
  let (token, rest) ← composer.next
  let explicit : ComposeStep := do
    let (handles, token', rest) ← directives false [] tokens
    match token'.kind with
    | .documentStart =>
        return (⟨.documentStart, token.start⟩,
          { composer with tokens := rest, awaiting := .content, handles }.defer .documentEnd)
    | _ => .error (.problem { cause := .missingDocumentStart, mark := token'.start })
  match token.kind with
  | .streamEnd =>
      return (⟨.streamEnd, token.start⟩, { composer with tokens := rest, awaiting := .finished })
  | .version .. | .tagDirective .. | .documentStart => explicit
  | _ =>
      if announced then explicit
      else
        return (⟨.documentStart, token.start⟩,
          { composer with awaiting := .root, handles := standardHandles }.defer .documentEnd)

/-- Reads the node of a document after its start marker, if there is one. -/
def content (composer : Composer) : ComposeStep := do
  let (token, _) ← composer.next
  match token.kind with
  | .version .. | .tagDirective .. | .documentStart | .documentEnd | .streamEnd =>
      return (⟨.scalar "" .plain none none, token.start⟩, composer.resume)
  | _ => composer.node true false

/-- Ends a document. -/
def documentEnd (composer : Composer) : ComposeStep := do
  let (token, rest) ← composer.next
  let tokens := if token.kind == .documentEnd then rest else composer.tokens
  return (⟨.documentEnd, token.start⟩, { composer with tokens, awaiting := .document true })

/-! ## Block collections -/

/-- Reads a node unless the next token is one of those that can only follow it. -/
def nodeUnless (enders : List TokenKind) (block bare : Bool) (awaiting : Awaiting)
    (empty : Token → Mark) (composer : Composer) : ComposeStep := do
  let (token, _) ← composer.next
  if enders.contains token.kind then return composer.emptyScalar awaiting (empty token)
  else (composer.defer awaiting).node block bare

/-- Reads an entry of a block sequence. -/
def blockEntry (began : Mark) (composer : Composer) : ComposeStep := do
  let (token, rest) ← composer.next
  let passed := composer.after rest
  match token.kind with
  | .blockEntry =>
      passed.nodeUnless [.blockEntry, .blockEnd] true false (.blockEntry began)
        fun _ => token.stop
  | .blockEnd => return (⟨.sequenceEnd, token.start⟩, passed.resume)
  | _ => failDuring .blockCollection began .missingDash token

/-- Reads an entry of a sequence that is indented no deeper than its key. -/
def bareEntry (composer : Composer) : ComposeStep := do
  let (token, rest) ← composer.next
  match token.kind with
  | .blockEntry =>
      (composer.after rest).nodeUnless [.blockEntry, .key, .value, .blockEnd]
        true false .bareEntry fun _ => token.stop
  | _ => return (⟨.sequenceEnd, token.start⟩, composer.resume)

/-- Reads a key of a block mapping. -/
def blockKey (began : Mark) (composer : Composer) : ComposeStep := do
  let (token, rest) ← composer.next
  let passed := composer.after rest
  match token.kind with
  | .key =>
      passed.nodeUnless [.key, .value, .blockEnd] true true (.blockValue began)
        fun _ => token.stop
  | .blockEnd => return (⟨.mappingEnd, token.start⟩, passed.resume)
  | _ => failDuring .blockMapping began .missingKey token

/-- Reads a value of a block mapping. -/
def blockValue (began : Mark) (composer : Composer) : ComposeStep := do
  let (token, rest) ← composer.next
  match token.kind with
  | .value =>
      (composer.after rest).nodeUnless [.key, .value, .blockEnd] true true
        (.blockKey began) fun _ => token.stop
  | _ => return composer.emptyScalar (.blockKey began) token.start

/-! ## Flow collections -/

/-- Steps over the comma that must stand before every entry but the first. -/
def flowSeparator (first : Bool) (closer : TokenKind) (activity : Activity) (began : Mark)
    (cause : Cause) (composer : Composer) : Except Halt Composer := do
  let (token, rest) ← composer.next
  if first || token.kind == closer then return composer
  else if token.kind == .flowEntry then return composer.after rest
  else failDuring activity began cause token

/-- Reads an entry of a flow sequence. -/
def flowEntry (first : Bool) (began : Mark) (composer : Composer) : ComposeStep := do
  let composer ← composer.flowSeparator first .flowSequenceEnd .flowSequence began
    .missingSequenceSeparator
  let (token, rest) ← composer.next
  let passed := composer.after rest
  match token.kind with
  | .key =>
      return (⟨.mappingStart none none, token.start⟩, { passed with awaiting := .pairKey began })
  | .flowSequenceEnd => return (⟨.sequenceEnd, token.start⟩, passed.resume)
  | _ => (composer.defer (.flowEntry false began)).node false false

/-- Reads the key of a pair; a token that shows that there is none is stepped over. -/
def pairKey (began : Mark) (composer : Composer) : ComposeStep := do
  let (token, rest) ← composer.next
  match token.kind with
  | .value | .flowEntry | .flowSequenceEnd =>
      return (composer.after rest).emptyScalar (.pairValue began) token.stop
  | _ => (composer.defer (.pairValue began)).node false false

/-- Reads the value of a pair. -/
def pairValue (began : Mark) (composer : Composer) : ComposeStep := do
  let (token, rest) ← composer.next
  match token.kind with
  | .value =>
      (composer.after rest).nodeUnless [.flowEntry, .flowSequenceEnd] false false
        (.pairEnd began) fun following => following.start
  | _ => return composer.emptyScalar (.pairEnd began) token.start

/-- Ends a pair. -/
def pairEnd (began : Mark) (composer : Composer) : ComposeStep := do
  let (token, _) ← composer.next
  return (⟨.mappingEnd, token.start⟩, { composer with awaiting := .flowEntry false began })

/-- Reads a key of a flow mapping. -/
def flowKey (first : Bool) (began : Mark) (composer : Composer) : ComposeStep := do
  let composer ← composer.flowSeparator first .flowMappingEnd .flowMapping began
    .missingMappingSeparator
  let (token, rest) ← composer.next
  let passed := composer.after rest
  match token.kind with
  | .key =>
      passed.nodeUnless [.value, .flowEntry, .flowMappingEnd] false false (.flowValue began)
        fun following => following.start
  | .flowMappingEnd => return (⟨.mappingEnd, token.start⟩, passed.resume)
  | _ => (composer.defer (.flowNoValue began)).node false false

/-- Reads a value of a flow mapping. -/
def flowValue (began : Mark) (composer : Composer) : ComposeStep := do
  let (token, rest) ← composer.next
  match token.kind with
  | .value =>
      (composer.after rest).nodeUnless [.flowEntry, .flowMappingEnd] false false
        (.flowKey false began) fun following => following.start
  | _ => return composer.emptyScalar (.flowKey false began) token.start

/-- Gives the empty value of a key that stands alone. -/
def flowNoValue (began : Mark) (composer : Composer) : ComposeStep := do
  let (token, _) ← composer.next
  return composer.emptyScalar (.flowKey false began) token.start

/-! ## The event list -/

/-- The next event. -/
def step (composer : Composer) : ComposeStep :=
  match composer.awaiting with
  | .document announced => composer.documentStart announced
  | .root => composer.node true false
  | .content => composer.content
  | .documentEnd => composer.documentEnd
  | .blockEntry began => composer.blockEntry began
  | .bareEntry => composer.bareEntry
  | .blockKey began => composer.blockKey began
  | .blockValue began => composer.blockValue began
  | .flowEntry first began => composer.flowEntry first began
  | .pairKey began => composer.pairKey began
  | .pairValue began => composer.pairValue began
  | .pairEnd began => composer.pairEnd began
  | .flowKey first began => composer.flowKey first began
  | .flowValue began => composer.flowValue began
  | .flowNoValue began => composer.flowNoValue began
  | .finished => .error .finished

/-- At most so many events, and why they end. -/
def run : Nat → Composer → List Event × Halt
  | 0, _ => ([], .finished)
  | limit + 1, composer =>
      match composer.step with
      | .error halt => ([], halt)
      | .ok (event, next) =>
          let (events, halt) := run limit next
          (event :: events, halt)

end Composer

/-- The events of a stream, and the problem that stopped them. At most three events in a row come
without a token of their own, so there are fewer than four for each token. -/
def events (text : List Char) : List Event × Option Problem :=
  let (tokens, scanProblem) := tokens text
  if tokens.isEmpty then ([], scanProblem)
  else
    match (Composer.start tokens).run (4 * tokens.length + 8) with
    | (events, .finished) => (events, none)
    | (events, .outOfTokens) => (events, scanProblem)
    | (events, .problem problem) => (events, some problem)

end Heredoc.Yaml
