import FormPage.PageSpec.DecodeError
import FormPage.PageSpec.Basic
import FormPage.PageSpec.Format

/-!
Building a page from its description. Nodes are created in document order: an element, the text that
its short form gives, then its children, each placed below its parent before its own children are
built. Afterwards the layout links the positioned ancestors and the page looks for its balloon.
-/

namespace FormPage

/-- Why a page could not be loaded. -/
inductive LoadError where
  /-- The text is not of its format. -/
  | malformed (format : Format)
  /-- The value is no page document. -/
  | invalid (cause : DecodeError)
  /-- An attribute cannot be set. -/
  | badAttribute (name : String) (tag : Tag) (cause : TreeError)
  /-- A text cannot be put into an element. -/
  | badText (tag : Tag) (cause : TreeError)
  /-- A node cannot be put into its parent. -/
  | badPlace (tag : Tag) (cause : TreeError)
  /-- The path does not tell the format. -/
  | unknownFormat (path : String)
  /-- The file cannot be read. -/
  | unreadable (path : String)
  /-- The file was read but does not hold a page. -/
  | inFile (path : String) (cause : LoadError)
deriving Repr

namespace LoadError

/-- The wording of a failure, outermost first. What is wrong with a malformed text or with an
unreadable file is not told further. -/
def messages : LoadError → List String
  | malformed format => ["failed to parse " ++ format.title ++ " document"]
  | invalid cause => ["invalid page document", cause.message]
  | badAttribute name tag cause =>
    ["cannot set attribute " ++ name ++ " on " ++ tag.name, cause.message]
  | badText tag cause => [tag.name ++ " cannot hold text", cause.message]
  | badPlace tag cause => ["cannot place " ++ tag.name ++ " here", cause.message]
  | unknownFormat path => ["cannot infer document format of " ++ path]
  | unreadable path => ["failed to read " ++ path]
  | inFile path cause => ("failed to load " ++ path) :: cause.messages

/-- The outermost wording of a failure. -/
def message (e : LoadError) : String := e.messages.head?.getD ""

/-- The causes below the outermost wording. -/
def causes (e : LoadError) : List String := e.messages.drop 1

end LoadError

/-- What is built so far. -/
structure Building where
  document : Document := .empty
  bindings : Bindings := ∅

namespace Building

/-- Runs an edit of the document; what it fails with becomes the cause of a load error. -/
def attempt {α : Type} (b : Building) (e : Edit α) (blame : TreeError → LoadError) :
    Except LoadError (α × Building) :=
  match b.document.edit e with
  | (.ok a, document) => .ok (a, { b with document })
  | (.error cause, _) => .error (blame cause)

/-- Adds a node that is not attached yet. -/
def add (b : Building) (node : Node) : NodeId × Building :=
  (b.document.size, { b with document := b.document.push node })

/-- Sets the attributes of an element one after the other. -/
def setAttributes (b : Building) (n : NodeId) (tag : Tag) (attributes : List (String × String)) :
    Except LoadError Building :=
  attributes.foldlM (fun b e =>
    (b.attempt (Document.setAttribute n e.1 e.2) (.badAttribute e.1 tag)).map (·.2)) b

/-- Puts a text into an element, if there is one. -/
def setText (b : Building) (n : NodeId) (tag : Tag) : Option String → Except LoadError Building
  | none => .ok b
  | some text =>
    let (content, b) := b.add { tag := .text, text }
    (b.attempt (Document.appendChild n content) (.badText tag)).map (·.2)

/-- Creates the node of a description, with its attributes and the text of its short form. -/
def create (b : Building) (spec : NodeSpec) : Except LoadError (NodeId × Building) :=
  if spec.tag = .text then .ok (b.add { tag := .text, text := spec.text.getD "" })
  else do
    let (n, b) := b.add { tag := spec.tag }
    let b ← b.setAttributes n spec.tag spec.attributes.entries
    let b ← b.setText n spec.tag spec.text
    return (n, b)

/-- Sets the style and the box of a node, and binds its handlers. -/
def furnish (b : Building) (n : NodeId) (spec : NodeSpec) : Building where
  document := b.document.update n fun node =>
    { node with style := spec.style, geometry := spec.geometry }
  bindings := spec.on.entries.foldl (fun bindings e => bindings.bind n e.1 e.2) b.bindings

/-- Creates the node of a description and places it below a parent. -/
def place (b : Building) (parent : NodeId) (spec : NodeSpec) :
    Except LoadError (NodeId × Building) := do
  let (n, b) ← b.create spec
  let ((), b) ← (b.furnish n spec).attempt (Document.appendChild parent n) (.badPlace spec.tag)
  return (n, b)

end Building

mutual

/-- Builds a description below a parent. -/
def NodeSpec.buildBelow (parent : NodeId) (b : Building) :
    NodeSpec → Except LoadError Building
  | { tag, attributes, text, style, geometry, on, children } => do
    let (n, b) ← b.place parent { tag, attributes, text, style, geometry, on, children }
    NodeSpec.buildAllBelow n b children

/-- Builds descriptions below a parent, one after the other. -/
def NodeSpec.buildAllBelow (parent : NodeId) (b : Building) :
    List NodeSpec → Except LoadError Building
  | [] => .ok b
  | spec :: rest => do
    let b ← spec.buildBelow parent b
    NodeSpec.buildAllBelow parent b rest

end

/-- Builds a page. -/
def PageSpec.build (spec : PageSpec) : Except LoadError Page := do
  let b ← NodeSpec.buildAllBelow Document.body {} spec.body
  return Page.ofDocument b.document.relayout b.bindings spec.options spec.title

end FormPage
