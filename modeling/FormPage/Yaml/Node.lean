import FormPage.Yaml.Scalar

/-!
The nodes of a YAML document. As a JSON value, a plain scalar is what it means and any other scalar
its text; the keys of a mapping have to be scalars and count by their text.
-/

namespace FormPage.Yaml

/-- A node of a document. -/
inductive Node where
  | scalar (plain : Bool) (text : String)
  | list (items : List Node)
  | map (pairs : List (Node × Node))
deriving Inhabited, Repr

namespace Node

/-- The node that stands where nothing is written. -/
def nothing : Node := .scalar true ""

/-- The text of a node that can be a key. -/
def key? : Node → Option String
  | .scalar _ text => some text
  | _ => none

mutual

/-- The JSON value of a node. -/
def toJson? : Node → Option Json
  | .scalar true text => resolve? text
  | .scalar false text => some (.str text)
  | .list items => (toItems? items).map .arr
  | .map pairs => (toMembers? pairs).map Json.ofMembers

/-- The JSON values of some nodes. -/
def toItems? : List Node → Option (List Json)
  | [] => some []
  | n :: rest => do
    let j ← n.toJson?
    let js ← toItems? rest
    return j :: js

/-- The JSON members of some pairs. -/
def toMembers? : List (Node × Node) → Option (List (String × Json))
  | [] => some []
  | (k, v) :: rest => do
    let key ← k.key?
    let j ← v.toJson?
    let ms ← toMembers? rest
    return (key, j) :: ms

end

end Node

end FormPage.Yaml
