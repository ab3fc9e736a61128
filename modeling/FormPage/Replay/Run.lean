import FormPage.PageSpec.Emit
import FormPage.PageSpec.Load
import FormPage.Replay.Arguments
import FormPage.Replay.Console
import FormPage.Replay.Report

/-!
A run: it loads a page, replays events on it in order, and writes the page to its destinations. All
destinations are checked before the first is written, and the run ends at its first failure.
-/

namespace FormPage.Replay

/-- Why a run failed. -/
inductive Failure where
  | usage (fault : UsageError)
  | badFormat (flag : Flag) (name : String)
  | unreadableInput
  | unreadablePage (path : String)
  | badPage (error : LoadError)
  | noTarget (key : String)
  | occupied (path : String)
  | unwritable (path : String)
deriving Repr

namespace Failure

/-- The wording of a failure. -/
def message : Failure → String
  | usage fault => fault.message
  | badFormat flag name => "unsupported --" ++ flag.name ++ " value '" ++ name ++ "'"
  | unreadableInput => "failed to read page from stdin"
  | unreadablePage path => "failed to read page " ++ path
  | badPage error => error.message
  | noTarget key => "no element with id or name '" ++ key ++ "'"
  | occupied path => path ++ " already exists; pass --force to overwrite"
  | unwritable path => "failed to write to file " ++ path

/-- The exit code after a failure. -/
def exitCode : Failure → Nat
  | usage _ => 2
  | _ => 1

end Failure

/-- The line that shows the version. -/
def versionLine : String := "configform 0.1.0\n"

/-- Where a page is written. -/
inductive Destination where
  | output
  | file (path : String)
deriving DecidableEq, Repr

/-- The destination that an argument names: a dash is the output. -/
def Destination.ofArgument (raw : String) : Destination :=
  if raw = "-" then .output else .file raw

/-- The format that the value of an option names. -/
def formatOf (flag : Flag) (name : String) : Except Failure Format :=
  match Format.ofName? name with
  | some format => .ok format
  | none => .error (.badFormat flag name)

section Steps

variable {m : Type → Type} [Monad m] [Console m]

/-- A step that does not look at the world. -/
def check {α : Type} (e : Except Failure α) : ExceptT Failure m α := ExceptT.mk (pure e)

/-- The text of the page, and the format that its path tells. -/
def readPage (spec : String) : ExceptT Failure m (String × Option Format) :=
  if spec = "-" then do
    match ← liftM (Console.readAll : m (Option String)) with
    | some text => return (text, none)
    | none => throw .unreadableInput
  else do
    match ← liftM (Console.contents spec : m Contents) with
    | .text text => return (text, Format.ofPath? spec)
    | .unreadable => throw (.unreadablePage spec)
    | .nothing => return (spec, none)

/-- The page of a command line. -/
def loadPage (args : Arguments) : ExceptT Failure m Page := do
  let named ← check (args.inputFormat.mapM (formatOf .inputFormat))
  let (text, told) ← readPage args.page
  check ((Page.load ((named.or told).getD .json) text).mapError .badPage)

/-- The reply to a question: the one given before, or what the user says. -/
def ask (reply : Option Bool) (question : String) : m Bool :=
  match reply with
  | some answer => do
    Console.tell (repliedLine question answer)
    return answer
  | none => do
    Console.tell (questionText question)
    return agrees (← Console.readLine)

/-- Replays one event. Whether there is a question does not depend on the reply, so the page is
first asked what it would say to a refusal. -/
def replay (reply : Option Bool) (page : Page) (cue : Cue) : ExceptT Failure m Page :=
  match page.findControl? cue.target with
  | none => throw (.noTarget cue.target)
  | some target => do
    let answer ←
      match (page.react target cue.event fun _ => false).1.prompts with
      | [] => pure false
      | question :: _ => liftM (ask reply question : m Bool)
    let (reaction, page) := page.react target cue.event fun _ => answer
    reaction.submissions.forM fun s => liftM (Console.tell (sentLine s) : m Unit)
    liftM (Console.tell
      (cue.event.name ++ " " ++ cue.target ++ ": " ++ describe reaction.outcome ++ "\n") : m Unit)
    return page

/-- Checks that nothing is overwritten. -/
def checkFree : List Destination → ExceptT Failure m Unit
  | [] => pure ()
  | .output :: rest => checkFree rest
  | .file path :: rest => do
    if ← liftM (Console.occupied path : m Bool) then throw (.occupied path)
    checkFree rest

/-- Writes a text to destinations in order. -/
def writeAll (text : String) : List Destination → ExceptT Failure m Unit
  | [] => pure ()
  | .output :: rest => do
    liftM (Console.write text : m Unit)
    writeAll text rest
  | .file path :: rest => do
    if ← liftM (Console.writeFile path text : m Bool) then writeAll text rest
    else throw (.unwritable path)

/-- Runs a command line: everything before the destinations are written. -/
def prepare (args : Arguments) : ExceptT Failure m (String × List Destination) := do
  let page ← args.events.foldlM (replay args.reply) (← loadPage args)
  let format ← check (formatOf .format args.format)
  let destinations := args.outputs.map Destination.ofArgument
  if !args.force then checkFree destinations
  let text := page.emit { format, pretty := args.pretty, markup := args.markup }
  return (text, if destinations.isEmpty then [.output] else destinations)

/-- Runs a command line. -/
def run (line : List String) : ExceptT Failure m Unit := do
  match Arguments.parse line with
  | .error .version => liftM (Console.write versionLine : m Unit)
  | .error (.fault e) => throw (.usage e)
  | .ok args =>
    let (text, destinations) ← prepare args
    writeAll text destinations

end Steps

/-- Runs a command line in a world of values. -/
def runIn (w : World) (line : List String) : Except Failure Unit × World :=
  (run line : ExceptT Failure (StateM World) Unit).run w

end FormPage.Replay
