import FormPage.PageSpec.Encode

/-!
The description of a page as it is now. Texts are always nodes of their own, and only what is
attached below the body is described.
-/

namespace FormPage.Page

/-- The description of one node with that of its children. -/
def nodeSpec (p : Page) (n : NodeId) (node : Node) (children : List NodeSpec) : NodeSpec where
  tag := node.tag
  attributes := if node.tag = .text then ∅ else node.attributes
  text := if node.tag = .text then some node.text else none
  style := node.style
  geometry := node.geometry
  on := OrderedMap.ofList (p.bindings.ofNode n)
  children

/-- The description of a node and of all below it. -/
def snapshotBelow (p : Page) (n : NodeId) : NodeSpec := p.document.fold p.nodeSpec default n

/-- The description of a page. -/
def snapshot (p : Page) : PageSpec where
  title := p.title
  options := p.options
  body := (p.document.children Document.body).map p.snapshotBelow

/-- Whether two descriptions are the same up to the order of attributes and handlers. -/
def sameSnapshot (a b : PageSpec) : Bool := a.encode == b.encode

end FormPage.Page
