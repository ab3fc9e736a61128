import FormPage.OrderedMap
import FormPage.Document.Style
import FormPage.Document.Tag

/-!
The visual tree of a page. A document is a growing array of nodes; a node is named by its index and
keeps it for ever, also while it is detached. The links between nodes are read through the views of
this module, which answer `none` or nothing for an index that names no node, and are written
through `update`, whose effect on every look-up `node?_update` states.
-/

namespace FormPage

/-- The index of a node in its document. -/
abbrev NodeId := Nat

/-- One node: what it is, how it is linked, and what it shows. -/
structure Node where
  /-- What kind of node it is. -/
  tag : Tag
  /-- The node it hangs below, if it is attached to one. -/
  parent : Option NodeId := none
  /-- The nodes that hang below it, in order. -/
  children : List NodeId := []
  /-- The link to its positioned ancestor, as the layout last set it. -/
  offsetParent : Option NodeId := none
  /-- The attributes of an element. -/
  attributes : OrderedMap String String := ∅
  /-- The text of a text node. -/
  text : String := ""
  /-- The inline style. -/
  style : Style := {}
  /-- The laid-out box, if the layout reported one. -/
  geometry : Option BoxGeometry := none
deriving DecidableEq, Repr

/-- The nodes of a page, attached or not. -/
structure Document where
  /-- All nodes, oldest first. -/
  nodes : Array Node
  /-- Whether the layout answers for positioned ancestors at all. -/
  reportsOffsets : Bool := true
deriving DecidableEq, Repr

namespace Document

/-- The index of the topmost element. -/
def root : NodeId := 0

/-- The index of the element that holds the content. -/
def body : NodeId := 1

/-- The document without content: the body below the root. -/
def empty : Document where
  nodes := #[{ tag := .html, children := [body] }, { tag := .body, parent := some root }]

instance : Inhabited Document := ⟨empty⟩

/-- The number of nodes, which is also the index of the next one. -/
def size (d : Document) : Nat := d.nodes.size

/-- The node at an index. -/
def node? (d : Document) (n : NodeId) : Option Node := d.nodes[n]?

/-- Whether an index names a node. -/
def contains (d : Document) (n : NodeId) : Bool := n < d.size

/-- The kind of a node. -/
def tag? (d : Document) (n : NodeId) : Option Tag := (d.node? n).map (·.tag)

/-- The parent of a node. -/
def parent? (d : Document) (n : NodeId) : Option NodeId := (d.node? n).bind (·.parent)

/-- The children of a node, in order. -/
def children (d : Document) (n : NodeId) : List NodeId := ((d.node? n).map (·.children)).getD []

/-- The first child of a node. -/
def firstChild? (d : Document) (n : NodeId) : Option NodeId := (d.children n).head?

/-- The stored link of a node to its positioned ancestor. -/
def offsetLink? (d : Document) (n : NodeId) : Option NodeId := (d.node? n).bind (·.offsetParent)

/-- The positioned ancestor of a node, as far as the layout reports it. -/
def offsetParent? (d : Document) (n : NodeId) : Option NodeId :=
  if d.reportsOffsets then d.offsetLink? n else none

/-- The value of an attribute. -/
def attribute? (d : Document) (n : NodeId) (name : String) : Option String :=
  (d.node? n).bind fun node => node.attributes.get? name

/-- The own text of a text node, and nothing for an element. -/
def text (d : Document) (n : NodeId) : String := ((d.node? n).map (·.text)).getD ""

/-- The inline style of a node. -/
def style? (d : Document) (n : NodeId) : Option Style := (d.node? n).map (·.style)

/-- The box of a node. -/
def geometry? (d : Document) (n : NodeId) : Option BoxGeometry := (d.node? n).bind (·.geometry)

/-- Changes one node, and nothing if the index names none. -/
def update (d : Document) (n : NodeId) (f : Node → Node) : Document :=
  { d with nodes := d.nodes.modify n f }

/-- Adds a node at the next index. -/
def push (d : Document) (node : Node) : Document := { d with nodes := d.nodes.push node }

@[simp] theorem size_update (d : Document) (n : NodeId) (f : Node → Node) :
    (d.update n f).size = d.size := by
  simp [update, size]

/-- An update is seen at its node and nowhere else. -/
theorem node?_update (d : Document) (n m : NodeId) (f : Node → Node) :
    (d.update n f).node? m = if n = m then (d.node? m).map f else d.node? m :=
  Array.getElem?_modify

@[simp] theorem size_push (d : Document) (node : Node) : (d.push node).size = d.size + 1 := by
  simp [push, size]

/-- A new node is seen at its index, and every other index keeps its node. -/
theorem node?_push (d : Document) (node : Node) (m : NodeId) :
    (d.push node).node? m = if m = d.size then some node else d.node? m :=
  Array.getElem?_push

/-- An index names a node exactly below the size. -/
theorem node?_isSome (d : Document) (n : NodeId) : (d.node? n).isSome = d.contains n := by
  by_cases h : n < d.nodes.size <;> simp [node?, contains, size, h]

end Document

end FormPage
