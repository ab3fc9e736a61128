import FormPage.Page.Event

/-!
The command line of a replay. Arguments are read from left to right: an option takes the arguments
behind it as its values and is checked as soon as the next option begins. At the end it is checked
that nothing is missing and that no two options exclude each other. The first fault ends the
reading, and so does the wish to see the version.
-/

namespace FormPage.Replay

/-- An option of the command line. -/
inductive Flag where
  | page | inputFormat | event | yes | no | output | format | markup | noPretty | force | version
deriving DecidableEq, Repr

namespace Flag

/-- All options. -/
def all : List Flag :=
  [page, inputFormat, event, yes, no, output, format, markup, noPretty, force, version]

/-- The name of an option behind two dashes. -/
def name : Flag → String
  | page => "page"
  | inputFormat => "input-format"
  | event => "event"
  | yes => "yes"
  | no => "no"
  | output => "output"
  | format => "format"
  | markup => "markup"
  | noPretty => "no-pretty"
  | force => "force"
  | version => "version"

/-- The letter of an option behind one dash. -/
def letter? : Flag → Option Char
  | page => some 'p'
  | event => some 'e'
  | yes => some 'y'
  | no => some 'n'
  | output => some 'o'
  | force => some 'f'
  | version => some 'V'
  | _ => none

/-- How messages call the value of an option that takes one. -/
def valueName? : Flag → Option String
  | page => some "<SPEC>"
  | inputFormat => some "<FORMAT>"
  | event => some "<EVENT>"
  | output => some "<DEST>..."
  | format => some "<FORMAT>"
  | _ => none

/-- Whether an option takes a value. -/
def takesValue (f : Flag) : Bool := f.valueName?.isSome

/-- Whether an option may be given again. -/
def repeats (f : Flag) : Bool := f = event || f = output

/-- How messages call an option. -/
def title (f : Flag) : String :=
  match f.valueName? with
  | some value => "--" ++ f.name ++ " " ++ value
  | none => "--" ++ f.name

end Flag

/-- An event to replay, and the id or name of the control where it happens. -/
structure Cue where
  event : Event
  target : String
deriving DecidableEq, Repr

/-- Why a text is no event to replay. -/
inductive CueFault where
  | noColon (raw : String)
  | noTarget (raw : String)
  | unknownEvent (name : String)
deriving DecidableEq, Repr

/-- The wording of a fault. -/
def CueFault.message : CueFault → String
  | noColon raw => "expected <event>:<target>, got '" ++ raw ++ "'"
  | noTarget raw => "event '" ++ raw ++ "' names no target"
  | unknownEvent name => Event.unknownName name

/-- The event that a text names in front of its first colon, and the target behind it. -/
def Cue.parse (raw : String) : Except CueFault Cue :=
  let cs := raw.toList
  let name := String.ofList (cs.takeWhile (· ≠ ':'))
  match cs.dropWhile (· ≠ ':') with
  | [] => .error (.noColon raw)
  | [_] => .error (.noTarget raw)
  | _ :: target =>
    match Event.ofName? name with
    | some event => .ok ⟨event, String.ofList target⟩
    | none => .error (.unknownEvent name)

/-- What a command line asks for. -/
structure Arguments where
  /-- The page: a path, a dash for the input, or the text itself. -/
  page : String
  inputFormat : Option String := none
  events : List Cue := []
  /-- The reply to every question, unless the user is asked. -/
  reply : Option Bool := none
  outputs : List String := []
  format : String := "json"
  markup : Bool := false
  pretty : Bool := true
  force : Bool := false
deriving DecidableEq, Repr

/-- Why a command line cannot be used. -/
inductive UsageError where
  | unknown (argument : String)
  | needlessValue (value : String) (flag : Flag)
  | missingValue (flag : Flag)
  | badEvent (raw : String) (fault : CueFault)
  | repeated (flag : Flag)
  | conflict (first second : Flag)
  | missingPage
deriving DecidableEq, Repr

/-- The wording of a fault. -/
def UsageError.message : UsageError → String
  | unknown argument => "error: unexpected argument '" ++ argument ++ "' found"
  | needlessValue value flag =>
    "error: unexpected value '" ++ value ++ "' for '" ++ flag.title ++
      "' found; no more were expected"
  | missingValue flag =>
    "error: a value is required for '" ++ flag.title ++ "' but none was supplied"
  | badEvent raw fault =>
    "error: invalid value '" ++ raw ++ "' for '" ++ Flag.event.title ++ "': " ++ fault.message
  | repeated flag => "error: the argument '" ++ flag.title ++ "' cannot be used multiple times"
  | conflict first second =>
    "error: the argument '" ++ first.title ++ "' cannot be used with '" ++ second.title ++ "'"
  | missingPage => "error: the following required arguments were not provided:"

/-- What ends the reading of a command line before a replay is known. -/
inductive Halt where
  /-- The version is to be shown. -/
  | version
  | fault (e : UsageError)
deriving DecidableEq, Repr

/-- Ends the reading with a fault. -/
def refuse {α : Type} (e : UsageError) : Except Halt α := .error (.fault e)

/-- A command line that is read up to some point. -/
structure Parsing where
  /-- What it asks for so far; its page counts only if one was given. -/
  draft : Arguments := { page := "" }
  /-- The options so far, in order. -/
  given : List Flag := []
  /-- The last option with its values, as long as it is not checked. -/
  pending : Option (Flag × List String) := none
deriving Repr

namespace Parsing

/-- The draft with an option and its values. -/
def apply (draft : Arguments) : Flag → List String → Except Halt Arguments
  | .page, values => .ok { draft with page := values.head?.getD "" }
  | .inputFormat, values => .ok { draft with inputFormat := values.head? }
  | .event, values => do
    let cues ← values.mapM fun raw =>
      (Cue.parse raw).mapError fun fault => .fault (.badEvent raw fault)
    return { draft with events := draft.events ++ cues }
  | .yes, _ => .ok { draft with reply := some true }
  | .no, _ => .ok { draft with reply := some false }
  | .output, values => .ok { draft with outputs := draft.outputs ++ values }
  | .format, values => .ok { draft with format := values.head?.getD "" }
  | .markup, _ => .ok { draft with markup := true }
  | .noPretty, _ => .ok { draft with pretty := false }
  | .force, _ => .ok { draft with force := true }
  | .version, _ => .error .version

/-- Checks an option with its values and adds it. -/
def add (p : Parsing) (flag : Flag) (values : List String) : Except Halt Parsing :=
  if flag.takesValue && values.isEmpty then refuse (.missingValue flag)
  else if !flag.repeats && p.given.contains flag then refuse (.repeated flag)
  else do
    let draft ← apply p.draft flag values
    return { draft, given := p.given ++ [flag] }

/-- Checks the last option, if that is still to be done. -/
def settle (p : Parsing) : Except Halt Parsing :=
  match p.pending with
  | none => .ok p
  | some (flag, values) => add { p with pending := none } flag values

/-- Begins an option, which may have a value attached. -/
def begin (p : Parsing) (flag : Flag) (attached : Option String) : Except Halt Parsing :=
  match flag.takesValue, attached with
  | true, some value => do (← p.settle).add flag [value]
  | true, none => do return { ← p.settle with pending := some (flag, []) }
  | false, some value => refuse (.needlessValue value flag)
  | false, none => do (← p.settle).add flag []

/-- An argument behind two dashes, with its value after an equals sign. -/
def long (p : Parsing) (cs : List Char) : Except Halt Parsing :=
  let name := cs.takeWhile (· ≠ '=')
  match Flag.all.find? fun f => f.name.toList = name with
  | none => refuse (.unknown ("--" ++ String.ofList name))
  | some flag =>
    match cs.dropWhile (· ≠ '=') with
    | [] => p.begin flag none
    | _ :: value => p.begin flag (some (String.ofList value))

/-- The letters behind one dash: options without value, or one with the rest as its value. -/
def short (p : Parsing) : List Char → Except Halt Parsing
  | [] => .ok p
  | c :: rest =>
    match Flag.all.find? fun f => f.letter? = some c with
    | none => refuse (.unknown (String.ofList ['-', c]))
    | some flag =>
      if flag.takesValue then
        match rest with
        | [] => p.begin flag none
        | '=' :: value => p.begin flag (some (String.ofList value))
        | value => p.begin flag (some (String.ofList value))
      else do (← p.begin flag none).short rest

/-- An argument that is no option: a value of the option before it, if that takes one more. -/
def value (p : Parsing) (argument : String) : Except Halt Parsing :=
  match p.pending with
  | some (flag, values) =>
    if values.isEmpty || flag = .output then
      .ok { p with pending := some (flag, values ++ [argument]) }
    else refuse (.unknown argument)
  | none => refuse (.unknown argument)

/-- Reads arguments; after two dashes alone no argument is an option or a value of one. -/
def readFrom (p : Parsing) : List String → Except Halt Parsing
  | [] => p.settle
  | argument :: rest =>
    match argument.toList with
    | ['-', '-'] =>
      match rest with
      | [] => p.settle
      | next :: _ => refuse (.unknown next)
    | '-' :: '-' :: cs => do (← p.long cs).readFrom rest
    | '-' :: c :: cs => do (← p.short (c :: cs)).readFrom rest
    | _ => do (← p.value argument).readFrom rest

/-- Checks what is given together and what is missing. -/
def finish (p : Parsing) : Except Halt Arguments :=
  match p.given.filter fun f => f = .yes || f = .no with
  | first :: second :: _ => refuse (.conflict first second)
  | _ => if p.given.contains .page then .ok p.draft else refuse .missingPage

end Parsing

/-- What a command line asks for. -/
def Arguments.parse (args : List String) : Except Halt Arguments := do
  (← Parsing.readFrom {} args).finish

end FormPage.Replay
