import FormPage.Replay.Run

/-!
The program: it runs its command line against the input, the output and the files that it is started
with.
-/

namespace FormPage.Replay

/-- What an action gives, or another value if it fails. -/
def attempt {α : Type} (action : IO α) (failed : IO.Error → α) : IO α :=
  tryCatch action fun e => pure (failed e)

/-- What is found at a path that could not be read as a text. -/
def contentsAfter : IO.Error → Contents
  | .noFileOrDirectory .. => .nothing
  | .noSuchThing .. => .nothing
  | .inappropriateType .. => .nothing
  | .invalidArgument .. => .nothing
  | _ => .unreadable

/-- The rest of the input. -/
partial def readRest (input : IO.FS.Stream) (bytes : ByteArray) : IO ByteArray := do
  let more ← input.read 65536
  if more.isEmpty then return bytes else readRest input (bytes ++ more)

instance : Console IO where
  write text := do
    let output ← IO.getStdout
    output.putStr text
    output.flush
  tell text := do
    let messages ← IO.getStderr
    messages.putStr text
    messages.flush
  readLine := attempt (do ( ← IO.getStdin).getLine) fun _ => ""
  readAll := do return String.fromUTF8? ( ← readRest ( ← IO.getStdin) .empty)
  contents path := attempt (Contents.text <$> IO.FS.readFile path) contentsAfter
  occupied path := attempt (do let _ ← IO.FS.realPath path; return true) fun _ => false
  writeFile path text := attempt (do IO.FS.writeFile path text; return true) fun _ => false

end FormPage.Replay

/-- Runs the program. -/
def main (args : List String) : IO UInt32 := do
  match ← (FormPage.Replay.run args : ExceptT FormPage.Replay.Failure IO Unit).run with
  | .ok () => return 0
  | .error e =>
    FormPage.Replay.Console.tell (m := IO) (e.message ++ "\n")
    return e.exitCode.toUInt32
