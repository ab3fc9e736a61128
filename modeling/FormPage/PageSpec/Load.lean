import FormPage.Json.Reader
import FormPage.PageSpec.Build
import FormPage.PageSpec.Decode
import FormPage.Toml.Reader
import FormPage.Yaml.Reader

/-!
Loading a page from text: the text is read in its format, the value is decoded as a page document,
and the page is built from that.
-/

namespace FormPage

/-- The value that a text of a format holds. -/
def Format.parse? : Format → String → Option Json
  | json, text => Json.parse? Json.documentLevels text
  | yaml, text => Yaml.parse? text
  | toml, text => Toml.parse? text

/-- The value that a text of a format holds, or the error that it is malformed. -/
def Format.parse (format : Format) (text : String) : Except LoadError Json :=
  match format.parse? text with
  | some j => .ok j
  | none => .error (.malformed format)

namespace Page

/-- The page that a value describes. -/
def ofJson (j : Json) : Except LoadError Page := do
  let spec ← (PageSpec.decode j).mapError .invalid
  spec.build

/-- The page that a text of a format describes. -/
def load (format : Format) (text : String) : Except LoadError Page := do
  let j ← format.parse text
  ofJson j

/-- The page that a file describes, whose path tells the format; `contents` is its text, if it can
be read. -/
def loadFile (path : String) (contents : Option String) : Except LoadError Page :=
  match Format.ofPath? path with
  | none => .error (.unknownFormat path)
  | some format =>
    match contents with
    | none => .error (.unreadable path)
    | some text => (load format text).mapError (.inFile path)

end Page

end FormPage
