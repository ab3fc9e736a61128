import FormPage.Document.Edit

/-!
Positioned ancestors. The layout links every rendered node to the ancestor against which its box is
measured; `setOffsetParent` sets one such link by hand and refuses to close a circle, `relayout`
recomputes all of them from the tree and the styles.
-/

namespace FormPage.Document

/-- Whether a node hangs below the root with no hidden node on the way; the root itself counts as
shown. -/
def isRendered (d : Document) (n : NodeId) : Bool :=
  let up := d.inclusiveAncestors n
  up.contains root &&
    (up.takeWhile (· ≠ root)).all fun m => ((d.style? m).map (!·.isHidden)).getD false

/-- Whether an ancestor measures the boxes below it: it is positioned, or a body, or it is a table
box and the node itself is static. -/
def measures (d : Document) (static : Bool) (ancestor : NodeId) : Bool :=
  match d.node? ancestor with
  | none => false
  | some node =>
    node.style.position.isPositioned || node.tag = .body || (static && node.tag.isTableBox)

/-- The positioned ancestor that the tree and the styles give a node: none for text, for the root
and the body, and for what is not rendered; else the nearest ancestor that measures it. -/
def layoutParent? (d : Document) (n : NodeId) : Option NodeId :=
  match d.node? n with
  | none => none
  | some node =>
    if node.tag = .text || n = root || n = body || !d.isRendered n then none
    else (d.ancestors n).find? (d.measures (!node.style.position.isPositioned))

/-- Recomputes the link of every node. -/
def relayout (d : Document) : Document :=
  { d with nodes := d.nodes.mapIdx fun n node => { node with offsetParent := d.layoutParent? n } }

/-- Links a node to a positioned ancestor, or to none. -/
def setOffsetParent (n : NodeId) (ancestor : Option NodeId) : Edit Unit := fun d =>
  if !d.contains n then (.error (.unknownNode n), d)
  else
    match ancestor with
    | none => (.ok (), d.update n fun node => { node with offsetParent := none })
    | some a =>
      if !d.contains a then (.error (.unknownNode a), d)
      else if n ∈ d.offsetLinks a then (.error (.cycle n), d)
      else (.ok (), d.update n fun node => { node with offsetParent := some a })

/-- Switches the answers for positioned ancestors on or off. -/
def withOffsets (d : Document) (reported : Bool) : Document := { d with reportsOffsets := reported }

end FormPage.Document
