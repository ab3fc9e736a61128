import FormPage.PageSpec.Basic
import FormPage.PageSpec.DecodeError

/-!
Reading page documents from JSON values. The members of an object are read in their order and the
first fault is reported; a required member that is missing is reported after all members are read.
A record may also be written as an array of its fields, and a name as an object with that name as
its only key.
-/

namespace FormPage

/-- The result of reading a value. -/
abbrev Decoded (α : Type) : Type := Except DecodeError α

namespace Decode

/-- Reads a string. -/
def string : Json → Decoded String
  | .str s => .ok s
  | j => .error (.wrongType j .string)

/-- Reads a 32-bit number. -/
def word : Json → Decoded Int32
  | .int n =>
    match Text.word32? n with
    | some x => .ok x
    | none => .error (.beyondWord n)
  | j => .error (.wrongType j .word)

/-- Reads a value that may be absent. -/
def optional {α : Type} (read : Json → Decoded α) : Json → Decoded (Option α)
  | .null => .ok none
  | j => (read j).map some

/-- Finds a value by its name among all of its type. -/
def named {α : Type} (all : List α) (name : α → String) (s : String) : Decoded α :=
  match all.find? fun a => name a = s with
  | some a => .ok a
  | none => .error (.unknownVariant s (all.map name))

/-- Reads a name, which may also be the only key of an object with nothing behind it. -/
def variant {α : Type} (all : List α) (name : α → String) : Json → Decoded α
  | .str s => named all name s
  | .obj [(s, v)] => do
    let a ← named all name s
    match v with
    | .null => return a
    | v => throw (.wrongType v .unit)
  | .obj _ => .error .notOneKey
  | j => .error (.wrongType j .variant)

/-- How a record is read. -/
structure Record (σ α : Type) where
  /-- The name of the record. -/
  name : String
  /-- The names of its fields, in the order in which an array gives them. -/
  fields : List String
  /-- Whether a member that is no field is a fault. -/
  strict : Bool
  /-- What is known before the first field. -/
  start : σ
  /-- Reads one field. -/
  set : σ → String → Json → Decoded σ
  /-- The record, or the first required field that is missing. -/
  finish : σ → Except String α

namespace Record

variable {σ α : Type}

/-- Reads one member of an object. -/
def member (r : Record σ α) (st : σ) (m : String × Json) : Decoded σ :=
  if m.1 ∈ r.fields then r.set st m.1 m.2
  else if r.strict then .error (.unknownField m.1 r.fields)
  else .ok st

/-- Reads the members of an object. -/
def ofMembers (r : Record σ α) (ms : List (String × Json)) : Decoded α := do
  let st ← ms.foldlM r.member r.start
  match r.finish st with
  | .ok a => return a
  | .error field => throw (.missingField field)

/-- Reads fields in the order of their declaration; `shape` is what they are called together. -/
def ofItems (r : Record σ α) (shape : String) (items : List Json) : Decoded α := do
  let st ← (r.fields.zip items).foldlM (fun st m => r.set st m.1 m.2) r.start
  match r.finish st with
  | .ok a => return a
  | .error _ => throw (.tooFewItems items.length shape r.fields.length)

/-- Reads a record. -/
def decode (r : Record σ α) : Json → Decoded α
  | .obj ms => r.ofMembers ms
  | .arr items => do
    let a ← r.ofItems ("struct " ++ r.name) items
    if r.fields.length < items.length then throw (.tooManyItems items.length)
    return a
  | j => .error (.wrongType j (.record r.name))

end Record

end Decode

open Decode

/-- Reads a kind of node. -/
def Tag.decode : Json → Decoded Tag := variant Tag.all Tag.name

/-- Reads an event. -/
def Event.decode : Json → Decoded Event := variant Event.all Event.name

/-- Reads a way to be displayed. -/
def Display.decode : Json → Decoded Display := variant Display.all Display.name

/-- Reads a position. -/
def Position.decode : Json → Decoded Position := variant Position.all Position.name

/-- How a shift is read. -/
def Nudge.record : Record (Option Int32 × Option Int32) Nudge where
  name := "Nudge"
  fields := ["left", "top"]
  strict := false
  start := (none, none)
  set st key v :=
    match key with
    | "left" => (word v).map fun x => (some x, st.2)
    | "top" => (word v).map fun x => (st.1, some x)
    | _ => .ok st
  finish
    | (some left, some top) => .ok ⟨left, top⟩
    | (none, _) => .error "left"
    | (_, none) => .error "top"

/-- Reads a shift. -/
def Nudge.decode : Json → Decoded Nudge := Nudge.record.decode

/-- How a box is read. -/
def BoxGeometry.record : Record BoxGeometry BoxGeometry where
  name := "BoxGeometry"
  fields := ["left", "top", "width", "height"]
  strict := false
  start := {}
  set b key v :=
    match key with
    | "left" => (word v).map fun x => { b with left := x }
    | "top" => (word v).map fun x => { b with top := x }
    | "width" => (word v).map fun x => { b with width := x }
    | "height" => (word v).map fun x => { b with height := x }
    | _ => .ok b
  finish := .ok

/-- Reads a box. -/
def BoxGeometry.decode : Json → Decoded BoxGeometry := BoxGeometry.record.decode

/-- How a style is read. -/
def Style.record : Record Style Style where
  name := "Style"
  fields := ["display", "position", "left", "top"]
  strict := false
  start := {}
  set s key v :=
    match key with
    | "display" => (Display.decode v).map fun x => { s with display := x }
    | "position" => (Position.decode v).map fun x => { s with position := x }
    | "left" => (Decode.optional word v).map fun x => { s with left := x }
    | "top" => (Decode.optional word v).map fun x => { s with top := x }
    | _ => .ok s
  finish := .ok

/-- Reads a style. -/
def Style.decode : Json → Decoded Style := Style.record.decode

/-- How the choices of a page are read. -/
def PageOptions.record : Record PageOptions PageOptions where
  name := "PageOptions"
  fields := ["request_field", "balloon_id", "balloon_class", "nudge", "default_field_name"]
  strict := false
  start := {}
  set o key v :=
    match key with
    | "request_field" => (string v).map fun x => { o with requestField := x }
    | "balloon_id" => (string v).map fun x => { o with balloonId := x }
    | "balloon_class" => (string v).map fun x => { o with balloonClass := x }
    | "nudge" => (Nudge.decode v).map fun x => { o with nudge := x }
    | "default_field_name" => (string v).map fun x => { o with defaultField := x }
    | _ => .ok o
  finish := .ok

/-- Reads the choices of a page. -/
def PageOptions.decode : Json → Decoded PageOptions := PageOptions.record.decode

namespace Action

/-- The kinds of action, without what they are given. -/
inductive Kind where
  | addField | setRequest | showHelp | hideHelp
deriving DecidableEq, Repr

/-- All kinds, in the order in which messages list them. -/
def Kind.all : List Kind := [addField, setRequest, showHelp, hideHelp]

/-- The name of a kind. -/
def Kind.name : Kind → String
  | addField => "add-field"
  | setRequest => "set-request"
  | showHelp => "show-help"
  | hideHelp => "hide-help"

/-- How what an action is given is read. -/
def Kind.record : Kind → Record (Option String) Action
  | addField =>
    { name := "Action::AddField", fields := ["field"], strict := false, start := none
      set := fun _ _ v => Decode.optional string v
      finish := fun field => .ok (.addField field) }
  | setRequest =>
    { name := "Action::SetRequest", fields := ["value"], strict := false, start := none
      set := fun _ _ v => (string v).map some
      finish := fun
        | some value => .ok (.setRequest value)
        | none => .error "value" }
  | showHelp =>
    { name := "Action::ShowHelp", fields := ["text"], strict := false, start := none
      set := fun _ _ v => (string v).map some
      finish := fun
        | some text => .ok (.showHelp text)
        | none => .error "text" }
  | hideHelp =>
    { name := "Action::HideHelp", fields := [], strict := false, start := none
      set := fun st _ _ => .ok st
      finish := fun _ => .ok .hideHelp }

/-- Reads the name of an action. -/
def Kind.decode : Json → Decoded Kind
  | .str s => named Kind.all Kind.name s
  | j => .error (.wrongType j .actionName)

/-- Reads an action: an object whose member `action` names it, or an array that begins with the
name. -/
def decode : Json → Decoded Action
  | .obj ms =>
    match ms.find? fun m => m.1 = "action" with
    | none => .error (.missingField "action")
    | some m => do
      let kind ← Kind.decode m.2
      kind.record.ofMembers ms
  | .arr [] => .error (.missingField "action")
  | .arr (name :: arguments) => do
    let kind ← Kind.decode name
    let r := kind.record
    let a ← r.ofItems ("struct variant " ++ r.name) arguments
    if r.fields.length < arguments.length then
      throw (.tooManyArguments arguments.length r.fields.length)
    return a
  | j => .error (.wrongType j .action)

end Action

namespace Decode

/-- Reads attributes. -/
def attributes : Json → Decoded (OrderedMap String String)
  | .obj ms => ms.foldlM (fun acc m => (string m.2).map (acc.insert m.1)) ∅
  | j => .error (.wrongType j .map)

/-- Reads handlers. -/
def handlers : Json → Decoded (OrderedMap Event Action)
  | .obj ms =>
    ms.foldlM (fun acc m => do
      let event ← named Event.all Event.name m.1
      let action ← Action.decode m.2
      return acc.insert event action) ∅
  | j => .error (.wrongType j .map)

end Decode

namespace NodeSpec

/-- The fields of a node, in the order in which an array gives them. -/
def fields : List String := ["tag", "attributes", "text", "style", "geometry", "on", "children"]

/-- A node of which not all fields are read. -/
structure Draft where
  tag : Option Tag := none
  /-- The other fields; the tag in here is not looked at. -/
  node : NodeSpec := default

/-- Reads a field other than the children. -/
def Draft.set (d : Draft) (key : String) (v : Json) : Decoded Draft :=
  match key with
  | "tag" => (Tag.decode v).map fun x => { d with tag := some x }
  | "attributes" =>
    (Decode.attributes v).map fun x => { d with node := { d.node with attributes := x } }
  | "text" =>
    (Decode.optional string v).map fun x => { d with node := { d.node with text := x } }
  | "style" => (Style.decode v).map fun x => { d with node := { d.node with style := x } }
  | "geometry" =>
    (Decode.optional BoxGeometry.decode v).map fun x =>
      { d with node := { d.node with geometry := x } }
  | "on" => (Decode.handlers v).map fun x => { d with node := { d.node with on := x } }
  | _ => .error (.unknownField key fields)

/-- Takes the children. -/
def Draft.withChildren (d : Draft) (children : List NodeSpec) : Draft :=
  { d with node := { d.node with children } }

/-- The node of a draft with a tag. -/
def Draft.finish (d : Draft) (missing : DecodeError) : Decoded NodeSpec :=
  match d.tag with
  | some tag => .ok { d.node with tag }
  | none => .error missing

mutual

/-- Reads a node. -/
def decode : Json → Decoded NodeSpec
  | .obj ms => do
    let d ← decodeMembers ms {}
    d.finish (.missingField "tag")
  | .arr items => do
    let d ← decodeItems fields items {}
    let s ← d.finish (.tooFewItems items.length "struct NodeSpec" fields.length)
    if fields.length < items.length then throw (.tooManyItems items.length)
    return s
  | j => .error (.wrongType j (.record "NodeSpec"))

/-- Reads the members of a node. -/
def decodeMembers : List (String × Json) → Draft → Decoded Draft
  | [], d => .ok d
  | (k, v) :: ms, d => do
    let d ← if k = "children" then (decodeChildren v).map d.withChildren else d.set k v
    decodeMembers ms d

/-- Reads the fields of a node in the order of their declaration. -/
def decodeItems : List String → List Json → Draft → Decoded Draft
  | k :: ks, v :: vs, d => do
    let d ← if k = "children" then (decodeChildren v).map d.withChildren else d.set k v
    decodeItems ks vs d
  | _, _, d => .ok d

/-- Reads the children of a node. -/
def decodeChildren : Json → Decoded (List NodeSpec)
  | .arr items => decodeAll items
  | j => .error (.wrongType j .sequence)

/-- Reads nodes one after the other. -/
def decodeAll : List Json → Decoded (List NodeSpec)
  | [] => .ok []
  | j :: rest => do
    let s ← decode j
    let ss ← decodeAll rest
    return s :: ss

end

end NodeSpec

/-- How a page is read. -/
def PageSpec.record : Record PageSpec PageSpec where
  name := "PageSpec"
  fields := ["title", "options", "body"]
  strict := true
  start := {}
  set p key v :=
    match key with
    | "title" => (Decode.optional string v).map fun x => { p with title := x }
    | "options" => (PageOptions.decode v).map fun x => { p with options := x }
    | "body" => (NodeSpec.decodeChildren v).map fun x => { p with body := x }
    | _ => .ok p
  finish := .ok

/-- Reads a page. -/
def PageSpec.decode : Json → Decoded PageSpec := PageSpec.record.decode

end FormPage
