import FormPage.Json.Basic
import FormPage.PageSpec.Basic

/-!
Page documents as JSON values. Members stand in the order of their keys. What is at its default is
left out, except the choices and the body of a page, and the fields of a style that is written at
all.
-/

namespace FormPage

/-- A 32-bit number as a JSON value. -/
def Json.ofWord (x : Int32) : Json := .int x.toInt

/-- A member that is there only if it has a value. -/
def Json.optional (key : String) : Option Json → List (String × Json)
  | none => []
  | some v => [(key, v)]

open Json (ofWord optional)

/-- A shift as a JSON value. -/
def Nudge.encode (n : Nudge) : Json := .obj [("left", ofWord n.left), ("top", ofWord n.top)]

/-- A box as a JSON value. -/
def BoxGeometry.encode (b : BoxGeometry) : Json :=
  .obj [("height", ofWord b.height), ("left", ofWord b.left), ("top", ofWord b.top),
    ("width", ofWord b.width)]

/-- A style as a JSON value. -/
def Style.encode (s : Style) : Json :=
  .obj (("display", .str s.display.name) :: optional "left" (s.left.map ofWord) ++
    ("position", .str s.position.name) :: optional "top" (s.top.map ofWord))

/-- An action as a JSON value, with its name as a member. -/
def Action.encode : Action → Json
  | addField field => .obj (("action", .str "add-field") :: optional "field" (field.map .str))
  | setRequest value => .obj [("action", .str "set-request"), ("value", .str value)]
  | showHelp text => .obj [("action", .str "show-help"), ("text", .str text)]
  | hideHelp => .obj [("action", .str "hide-help")]

/-- The choices of a page as a JSON value. -/
def PageOptions.encode (o : PageOptions) : Json :=
  .obj [("balloon_class", .str o.balloonClass), ("balloon_id", .str o.balloonId),
    ("default_field_name", .str o.defaultField), ("nudge", o.nudge.encode),
    ("request_field", .str o.requestField)]

/-- Attributes as a JSON value. -/
def encodeAttributes (m : OrderedMap String String) : Json :=
  Json.ofMembers (m.entries.map fun e => (e.1, .str e.2))

/-- Handlers as a JSON value. -/
def encodeHandlers (m : OrderedMap Event Action) : Json :=
  Json.ofMembers (m.entries.map fun e => (e.1.name, e.2.encode))

/-- A value that is left out if it is the default one. -/
def Json.omitted (isDefault : Bool) (v : Json) : Option Json := if isDefault then none else some v

mutual

/-- A node as a JSON value. -/
def NodeSpec.encode : NodeSpec → Json
  | { tag, attributes, text, style, geometry, on, children } =>
    .obj (optional "attributes" (Json.omitted attributes.isEmpty (encodeAttributes attributes)) ++
      optional "children" (Json.omitted children.isEmpty (.arr (NodeSpec.encodeAll children))) ++
      optional "geometry" (geometry.map BoxGeometry.encode) ++
      optional "on" (Json.omitted on.isEmpty (encodeHandlers on)) ++
      optional "style" (Json.omitted style.isDefault style.encode) ++
      ("tag", .str tag.name) :: optional "text" (text.map .str))

/-- Nodes as JSON values. -/
def NodeSpec.encodeAll : List NodeSpec → List Json
  | [] => []
  | s :: rest => s.encode :: NodeSpec.encodeAll rest

end

/-- A page as a JSON value. -/
def PageSpec.encode (p : PageSpec) : Json :=
  .obj (("body", .arr (NodeSpec.encodeAll p.body)) :: ("options", p.options.encode) ::
    optional "title" (p.title.map .str))

end FormPage
