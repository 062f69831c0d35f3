import Heredoc.Command.Basic

/-!
# Arguments

Reading a command from its arguments. A value that stands in an argument of its own, and a run of
files, are looked at only when something else comes after them; an option that does not exist is
refused before that.
-/

namespace Heredoc.Command

/-- The name that a command is called by. -/
inductive Verb where
  | check
  | scan
  | watch
deriving DecidableEq, Repr

/-- An option with a value. -/
inductive Switch where
  | config
  | maxBytes
  | disable
  | format
deriving DecidableEq, Repr

/-- What an option means. -/
inductive Flag where
  | help
  | switch (switch : Switch)
deriving DecidableEq, Repr

/-- The name of an option. -/
def Switch.name : Switch → String
  | .config => "config"
  | .maxBytes => "max-bytes"
  | .disable => "disable"
  | .format => "format"

/-- The letter of an option, if it has one. -/
def Switch.letter? : Switch → Option Char
  | .config => some 'c'
  | .format => some 'f'
  | .maxBytes | .disable => none

namespace Verb

/-- The text of a command's name. -/
def name : Verb → String
  | .check => "check"
  | .scan => "scan"
  | .watch => "watch"

/-- The command with a name. -/
def ofName? (text : String) : Option Verb :=
  [Verb.check, .scan, .watch].find? (·.name = text)

/-- The options of a command, apart from the one for help. -/
def switches : Verb → List Switch
  | .check => [.config, .maxBytes, .disable, .format]
  | .scan => []
  | .watch => [.config, .maxBytes, .disable]

/-- The meaning of an option's name. -/
def flagOfName? (verb : Verb) (text : String) : Option Flag :=
  if text = "help" then some .help
  else (verb.switches.find? (·.name = text)).map .switch

/-- The meaning of an option's letter. -/
def flagOfLetter? (verb : Verb) (letter : Char) : Option Flag :=
  if letter = 'h' then some .help
  else (verb.switches.find? (·.letter? = some letter)).map .switch

end Verb

/-! ## The form of an argument -/

/-- What an argument looks like. -/
inductive Word where
  /-- Two dashes, which end the options. -/
  | ending
  /-- The name of an option, with a value after an equals sign. -/
  | long (name : String) (value : Option String)
  /-- One dash and letters. -/
  | short (letters : List Char)
  /-- Anything else, a single dash included. -/
  | plain
deriving DecidableEq, Repr

/-- What an argument looks like. -/
def Word.ofArgument (argument : String) : Word :=
  match argument.toList with
  | ['-', '-'] => .ending
  | '-' :: '-' :: rest =>
      let (name, value) := Text.cutAt '=' rest
      .long (String.ofList name) (value.map String.ofList)
  | ['-'] => .plain
  | '-' :: letters => .short letters
  | _ => .plain

/-! ## What has been read -/

/-- The options and files that are settled. -/
structure Draft where
  request : Settings.Request := {}
  format : Option Format := none
  files : List Path := []
deriving DecidableEq, Repr

/-- What has been read but not looked at. -/
inductive Pending where
  | nothing
  /-- An option, and its value once that has come. -/
  | option (switch : Switch) (value : Option String)
  | files (paths : List String)
deriving DecidableEq, Repr

/-- Arguments as far as they have been read. -/
structure Reading where
  draft : Draft := {}
  pending : Pending := .nothing
deriving DecidableEq, Repr

/-- Gives a value to an option. Only `disable` may come again. -/
def Draft.set (draft : Draft) (switch : Switch) (value : String) : Except UsageError Draft :=
  let request := draft.request
  match switch with
  | .config =>
      if request.file.isSome then .error .repeatedOption
      else if value.isEmpty then .error .invalidValue
      else .ok { draft with request := { request with file := some ⟨value⟩ } }
  | .maxBytes =>
      if request.maxBytes.isSome then .error .repeatedOption
      else
        match Text.readSize? value.toList with
        | none => .error .invalidNumber
        | some size => .ok { draft with request := { request with maxBytes := some size } }
  | .disable =>
      .ok { draft with request := { request with disable := request.disable ++ [value] } }
  | .format =>
      if draft.format.isSome then .error .repeatedOption
      else
        match Format.ofName? value with
        | none => .error .invalidValue
        | some format => .ok { draft with format := some format }

/-- Adds files, none of which may be empty. -/
def Draft.addFiles (draft : Draft) (paths : List String) : Except UsageError Draft :=
  if paths.any String.isEmpty then .error .invalidValue
  else .ok { draft with files := draft.files ++ paths.map Path.mk }

namespace Reading

/-- Looks at what is pending. -/
def settle (reading : Reading) : Except UsageError Draft :=
  match reading.pending with
  | .nothing => .ok reading.draft
  | .option _ none => .error .invalidValue
  | .option switch (some value) => reading.draft.set switch value
  | .files paths => reading.draft.addFiles paths

/-- Takes an option. A value that is attached to it is looked at right away. -/
def addOption (reading : Reading) (switch : Switch) (value : Option String) :
    Except UsageError Reading := do
  let draft ← reading.settle
  match value with
  | some value => return { draft := ← draft.set switch value }
  | none => return { draft, pending := .option switch none }

/-- Takes a file. -/
def addFile (reading : Reading) (path : String) : Except UsageError Reading :=
  match reading.pending with
  | .files paths => .ok { reading with pending := .files (paths ++ [path]) }
  | _ => reading.settle.map fun draft => { draft, pending := .files [path] }

/-- Takes an argument that is no option: the value that an option waits for, or a file. -/
def addPlain (reading : Reading) (argument : String) : Except UsageError Reading :=
  match reading.pending with
  | .option switch none => .ok { reading with pending := .option switch (some argument) }
  | _ => reading.addFile argument

/-- Answers a request for help, once what came before is in order. -/
def answerHelp (reading : Reading) : Except UsageError Reading :=
  reading.settle.bind fun _ => .error .help

/-- Takes an option by its name. -/
def addLong (reading : Reading) (verb : Verb) (name : String) (value : Option String) :
    Except UsageError Reading :=
  match verb.flagOfName? name with
  | none => .error .unknownArgument
  | some .help => if value.isSome then .error .unexpectedValue else reading.answerHelp
  | some (.switch switch) => reading.addOption switch value

/-- Takes an option by its letter. What follows the letter is its value, with or without an equals
sign. -/
def addShort (reading : Reading) (verb : Verb) : List Char → Except UsageError Reading
  | [] => .ok reading
  | letter :: rest =>
      match verb.flagOfLetter? letter with
      | none => .error .unknownArgument
      | some .help => reading.answerHelp
      | some (.switch switch) =>
          match rest with
          | [] => reading.addOption switch none
          | '=' :: value => reading.addOption switch (some (String.ofList value))
          | value => reading.addOption switch (some (String.ofList value))

/-- Takes the arguments of a command. -/
def addAll (verb : Verb) : List String → Reading → Except UsageError Reading
  | [], reading => .ok reading
  | argument :: rest, reading =>
      match Word.ofArgument argument with
      | .ending => rest.foldlM addFile reading
      | .long name value => (reading.addLong verb name value).bind (addAll verb rest)
      | .short letters => (reading.addShort verb letters).bind (addAll verb rest)
      | .plain => (reading.addPlain argument).bind (addAll verb rest)

end Reading

/-- The command that a name and the options and files after it make. -/
def Draft.command (draft : Draft) : Verb → Command
  | .check => .check draft.request (draft.format.getD .text) draft.files
  | .scan => .scan draft.files
  | .watch => .watch draft.request draft.files

/-- Reads the arguments after a command's name. -/
def Verb.read (verb : Verb) (arguments : List String) : Except UsageError Command := do
  let reading ← Reading.addAll verb arguments {}
  let draft ← reading.settle
  if draft.files.isEmpty then throw .missingFiles
  return draft.command verb

/-! ## The whole command line -/

/-- Whether a name is one of a command, that for help included. -/
def isCommandName (name : String) : Bool :=
  name = "help" || (Verb.ofName? name).isSome

/-- The answer to a request for help on a topic, which is nothing or a command. -/
def helpOn : List String → UsageError
  | [] => .help
  | [topic] => if isCommandName topic then .help else .unknownCommand
  | _ => .unknownCommand

/-- Why something that should be the name of a command is none. -/
def notCommand (argument : String) (rest : List String) : UsageError :=
  match Word.ofArgument argument with
  | .ending =>
      match rest with
      | [] => .nothingGiven
      | next :: _ => if isCommandName next then .unknownArgument else .unknownCommand
  | .long name value =>
      if name = "help" then (if value.isSome then .unexpectedValue else .help)
      else if name = "version" then (if value.isSome then .unexpectedValue else .version)
      else .unknownArgument
  | .short ('h' :: _) => .help
  | .short ('V' :: _) => .version
  | .short _ => .unknownArgument
  | .plain => .unknownCommand

/-- The command that arguments stand for. -/
def parse (arguments : List String) : Except UsageError Command :=
  match arguments with
  | [] => .error .nothingGiven
  | argument :: rest =>
      match Verb.ofName? argument with
      | some verb => verb.read rest
      | none =>
          if argument = "help" then .error (helpOn rest) else .error (notCommand argument rest)

end Heredoc.Command
