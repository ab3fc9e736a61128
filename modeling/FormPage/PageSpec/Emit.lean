import FormPage.Json.Writer
import FormPage.Markup.Render
import FormPage.PageSpec.Format
import FormPage.PageSpec.Snapshot
import FormPage.Toml.Writer
import FormPage.Yaml.Writer

/-!
Writing a page: its description in one of the formats, or its markup.
-/

namespace FormPage

/-- How a page is written. -/
structure EmitOptions where
  format : Format := .json
  /-- Whether the description is laid out for readers, where the format leaves a choice. -/
  pretty : Bool := true
  /-- Whether the markup is written instead of the description. -/
  markup : Bool := false
deriving DecidableEq, Repr

/-- The text of a value in a format. -/
def Format.write (format : Format) (pretty : Bool) (j : Json) : String :=
  match format with
  | json => if pretty then j.prettyText else j.compactText
  | yaml => Yaml.text j
  | toml => Toml.text j

/-- The text of a page, with a newline at its end. -/
def Page.emit (p : Page) (options : EmitOptions) : String :=
  (if options.markup then Markup.render p.document Document.root
    else options.format.write options.pretty p.snapshot.encode) ++ "\n"

end FormPage
