import FormPage.Text.Ascii

/-!
The formats of page documents, known by name or by the extension of a file's path.
-/

namespace FormPage

/-- A format in which page documents are written. -/
inductive Format where
  | json | yaml | toml
deriving DecidableEq, Repr, Inhabited

namespace Format

/-- The name of a format. -/
def name : Format → String
  | json => "json"
  | yaml => "yaml"
  | toml => "toml"

/-- How messages call a format. -/
def title : Format → String
  | json => "JSON"
  | yaml => "YAML"
  | toml => "TOML"

/-- The format that a user means by a name, in either case. -/
def ofName? (raw : String) : Option Format :=
  match Text.lower raw with
  | "json" => some json
  | "yaml" => some yaml
  | "yml" => some yaml
  | "toml" => some toml
  | _ => none

/-- Cuts a path at its slashes. -/
def pathParts : List Char → List (List Char)
  | [] => [[]]
  | c :: rest =>
    if c = '/' then [] :: pathParts rest
    else
      match pathParts rest with
      | [] => [[c]]
      | part :: parts => (c :: part) :: parts

/-- The steps of a path: its parts without the empty ones and the dots that stay in place. -/
def pathSteps (path : String) : List (List Char) :=
  (pathParts path.toList).filter fun part => part ≠ [] && part ≠ ['.']

/-- The last step of a path, if it names something in its directory. -/
def fileName? (path : String) : Option (List Char) :=
  (pathSteps path).getLast?.filter (· ≠ ['.', '.'])

/-- What follows the last dot of a file's name, unless that dot is the first character. -/
def extension? (path : String) : Option String := do
  let name ← fileName? path
  let back := name.reverse
  let ext := back.takeWhile (· ≠ '.')
  if ext.length + 1 < back.length then some (String.ofList ext.reverse) else none

/-- The format that a path tells by its extension. -/
def ofPath? (path : String) : Option Format := (extension? path).bind ofName?

/-- A format is found by its own name. -/
theorem ofName?_name (f : Format) : ofName? f.name = some f := by
  cases f <;> decide

example : ofPath? "..json" = some json := by decide

example : ofPath? ".json" = none := by decide

end Format

end FormPage
