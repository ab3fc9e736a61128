import FormPage.OrderedMap
import FormPage.PageSpec.Format

/-!
The files that a run sees: texts and folders by location. A path leads to a location step by step,
so different spellings of one path are one file; two dots lead from a folder to the one around it.
-/

namespace FormPage

/-- A place for a file or a folder: the names on the way to it from the top, or from the folder
`up` levels above the one where the run starts. -/
structure Location where
  absolute : Bool
  up : Nat := 0
  names : List (List Char) := []
deriving DecidableEq, Repr

namespace Location

/-- The folder around a location; the top lies in itself. -/
def parent (l : Location) : Location :=
  if l.names.isEmpty && !l.absolute then { l with up := l.up + 1 }
  else { l with names := l.names.dropLast }

/-- A location in a folder. -/
def child (l : Location) (name : List Char) : Location := { l with names := l.names ++ [name] }

/-- The locations on the way to a location. -/
def folders (l : Location) : List Location :=
  ((List.range l.names.length).drop 1).map fun k => { l with names := l.names.take k }

/-- Where one step of a path leads. -/
def step (l : Location) (name : List Char) : Location :=
  if name = ['.', '.'] then l.parent else l.child name

/-- Where a path starts. -/
def start (path : String) : Location := { absolute := path.toList.head? = some '/' }

/-- Where a path leads if all its folders are there. -/
def ofPath (path : String) : Location := (Format.pathSteps path).foldl step (start path)

end Location

/-- Whether a path can only name a folder: it ends with a slash or with dots in place of a name. -/
def namesFolder (path : String) : Bool :=
  (Format.pathParts path.toList).getLast?.all fun part => part ∈ [[], ['.'], ['.', '.']]

/-- The longest name of a file, in bytes. -/
def longestName : Nat := 255

/-- The longest path, in bytes. -/
def longestPath : Nat := 4095

/-- Files and folders. -/
structure Files where
  texts : OrderedMap Location String := ∅
  folders : List Location := []
deriving DecidableEq, Repr

namespace Files

/-- Whether a folder is at a location; the folders in which a run starts are always there. -/
def hasFolder (fs : Files) (l : Location) : Bool := l.names.isEmpty || l ∈ fs.folders

/-- Where steps lead from a location; each has to start in a folder. -/
def walk? (fs : Files) : Location → List (List Char) → Option Location
  | l, [] => some l
  | l, step :: steps =>
    if !fs.hasFolder l || longestName < (String.ofList step).utf8ByteSize then none
    else fs.walk? (l.step step) steps

/-- Where a path leads. -/
def locate? (fs : Files) (path : String) : Option Location :=
  if path = "" || longestPath < path.utf8ByteSize then none
  else fs.walk? (.start path) (Format.pathSteps path)

/-- The text of a file. -/
def text? (fs : Files) (path : String) : Option String :=
  if namesFolder path then none else (fs.locate? path).bind fs.texts.get?

/-- Whether a path leads to a folder. -/
def isFolder (fs : Files) (path : String) : Bool := (fs.locate? path).any fs.hasFolder

/-- Whether a path leads to anything. -/
def occupied (fs : Files) (path : String) : Bool := (fs.text? path).isSome || fs.isFolder path

/-- Where a file can be written: at a location in a folder where no folder is. -/
def target? (fs : Files) (path : String) : Option Location :=
  if namesFolder path then none else (fs.locate? path).filter fun l => !fs.hasFolder l

/-- Writes a file, if it can be written. -/
def write? (fs : Files) (path text : String) : Option Files :=
  (fs.target? path).map fun l => { fs with texts := fs.texts.insert l text }

/-- A write leaves the folders alone. -/
theorem folders_write? {fs after : Files} {path text : String}
    (h : fs.write? path text = some after) : after.folders = fs.folders := by
  obtain ⟨l, -, rfl⟩ := Option.map_eq_some_iff.1 h
  rfl

/-- A walk through folders ends where its steps lead. -/
theorem walk?_eq_foldl {fs : Files} {steps : List (List Char)} {l k : Location}
    (h : fs.walk? l steps = some k) : k = steps.foldl Location.step l := by
  induction steps generalizing l with
  | nil => simpa [walk?] using h.symm
  | cons step steps ih =>
    unfold walk? at h
    split at h
    · cases h
    · exact ih h

/-- The way to a location depends on the folders alone. -/
theorem walk?_congr {fs after : Files} (h : after.folders = fs.folders)
    (steps : List (List Char)) (l : Location) : after.walk? l steps = fs.walk? l steps := by
  induction steps generalizing l with
  | nil => rfl
  | cons step steps ih => simp [walk?, hasFolder, h, ih]

/-- Where a path leads depends on the folders alone. -/
theorem locate?_congr {fs after : Files} (h : after.folders = fs.folders) (path : String) :
    after.locate? path = fs.locate? path := by
  simp only [locate?, walk?_congr h]

theorem target?_eq_some {fs : Files} {path : String} {l : Location}
    (h : fs.target? path = some l) : namesFolder path = false ∧ fs.locate? path = some l := by
  rw [target?] at h
  split at h
  · cases h
  · rename_i hfolder
    exact ⟨Bool.eq_false_iff.mpr hfolder, (Option.filter_eq_some_iff.mp h).1⟩

/-- A write is seen at every path that leads to its location and nowhere else. -/
theorem text?_write? {fs after : Files} {path text : String} (h : fs.write? path text = some after)
    (other : String) :
    after.text? other =
      if namesFolder other then none
      else if (fs.locate? other).isSome && fs.locate? other = fs.locate? path then some text
      else fs.text? other := by
  have moved := locate?_congr (folders_write? h) other
  obtain ⟨l, hl, rfl⟩ := Option.map_eq_some_iff.1 h
  have located := (target?_eq_some hl).2
  by_cases hf : namesFolder other
  · simp [text?, hf]
  · cases ho : fs.locate? other with
    | none => simp [text?, hf, moved, ho]
    | some k =>
      by_cases hk : k = l <;> simp [text?, hf, moved, ho, located, OrderedMap.get?_insert, hk]

/-- Adds a file together with the folders around it. -/
def add (fs : Files) (path text : String) : Files where
  texts := fs.texts.insert (Location.ofPath path) text
  folders := (Location.ofPath path).folders ++ fs.folders

/-- Folders that are there from the beginning, together with the folders around them. -/
def ofFolders (paths : List String) : Files where
  folders := paths.flatMap fun path => Location.ofPath path :: (Location.ofPath path).folders

end Files

end FormPage
