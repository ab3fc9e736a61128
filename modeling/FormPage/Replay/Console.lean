import FormPage.Replay.Files

/-!
The world around a run: its input and output, the messages to the user, and the files. A run is
written for any monad that offers these; `World` is the one in which everything is a value.
-/

namespace FormPage.Replay

/-- What is found at a path. -/
inductive Contents where
  /-- No file. -/
  | nothing
  /-- A file that is no text. -/
  | unreadable
  | text (s : String)
deriving DecidableEq, Repr

/-- What a run can do to the world around it. -/
class Console (m : Type → Type) where
  /-- Writes to the output. -/
  write (text : String) : m Unit
  /-- Tells the user something. -/
  tell (text : String) : m Unit
  /-- Takes a line of the input, with its end; nothing is left when it is empty. -/
  readLine : m String
  /-- Takes the rest of the input, if it is text. -/
  readAll : m (Option String)
  /-- What is found at a path. -/
  contents (path : String) : m Contents
  /-- Whether a path leads to a file or a folder. -/
  occupied (path : String) : m Bool
  /-- Writes a file; the answer tells whether that could be done. -/
  writeFile (path text : String) : m Bool

/-- A world whose parts are values. -/
structure World where
  input : List Char := []
  output : String := ""
  messages : String := ""
  files : Files := {}
deriving DecidableEq, Repr

namespace World

/-- The first line of a text with its end, and what follows it. -/
def splitLine : List Char → List Char × List Char
  | [] => ([], [])
  | c :: rest =>
    if c = '\n' then (['\n'], rest)
    else
      let (line, after) := splitLine rest
      (c :: line, after)

/-- No character is lost between lines. -/
theorem splitLine_append (cs : List Char) : (splitLine cs).1 ++ (splitLine cs).2 = cs := by
  induction cs with
  | nil => rfl
  | cons c rest ih =>
    by_cases h : c = '\n'
    · simp [splitLine, h]
    · simp [splitLine, h, ih]

instance : Console (StateM World) where
  write text := modify fun w => { w with output := w.output ++ text }
  tell text := modify fun w => { w with messages := w.messages ++ text }
  readLine w :=
    let (line, rest) := splitLine w.input
    (String.ofList line, { w with input := rest })
  readAll w := (some (String.ofList w.input), { w with input := [] })
  contents path w :=
    (match w.files.text? path with
      | some text => .text text
      | none => .nothing, w)
  occupied path w := (w.files.occupied path, w)
  writeFile path text w :=
    match w.files.write? path text with
    | some files => (true, { w with files })
    | none => (false, w)

end World

end FormPage.Replay
