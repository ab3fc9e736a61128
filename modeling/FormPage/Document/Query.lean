import FormPage.Document.Walk

/-!
Nearest-match queries. Each starts at the node it is given, which counts as the nearest, and an
absent node has no match.
-/

namespace FormPage.Document

/-- The first node with a tag in a list. -/
def firstTagged (d : Document) (tag : Tag) (ns : List NodeId) : Option NodeId :=
  ns.find? fun n => d.tag? n = some tag

/-- The step of an upward search: to the parent, or from a node without one to its positioned
ancestor. -/
def upward? (d : Document) (n : NodeId) : Option NodeId := (d.parent? n).or (d.offsetParent? n)

/-- The nearest node with a tag on the way up. -/
def nearestAbove? (d : Document) (n : Option NodeId) (tag : Tag) : Option NodeId :=
  d.firstTagged tag (d.path d.upward? n)

/-- The nearest node with a tag among a node and its earlier siblings. -/
def nearestBefore? (d : Document) (n : Option NodeId) (tag : Tag) : Option NodeId :=
  d.firstTagged tag (d.path d.previousSibling? n)

/-- The nearest node with a tag among a node and its later siblings. -/
def nearestAfter? (d : Document) (n : Option NodeId) (tag : Tag) : Option NodeId :=
  d.firstTagged tag (d.path d.nextSibling? n)

/-- The first child with a tag. -/
def firstChildTagged? (d : Document) (n : Option NodeId) (tag : Tag) : Option NodeId :=
  d.nearestAfter? (n.bind d.firstChild?) tag

end FormPage.Document
