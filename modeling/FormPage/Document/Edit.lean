import FormPage.Document.Walk
import FormPage.Text.Integer

/-!
Edits of a document. An edit answers with a value or with the reason of a failure, and with the
document as it then stands: what an edit had changed before it failed stays changed, so that
"nothing happened" is a property to be shown and not a convention.
-/

namespace FormPage

/-- Why a tree could not be changed. -/
inductive TreeError where
  /-- The index names no node. -/
  | unknownNode (node : NodeId)
  /-- The node cannot hold what was to be put into it. -/
  | notAContainer (node : NodeId)
  /-- The second node is not a child of the first. -/
  | notAChild (parent child : NodeId)
  /-- The node would come to lie below itself. -/
  | cycle (node : NodeId)
deriving DecidableEq, Repr

/-- The wording of a failure. -/
def TreeError.message : TreeError → String
  | unknownNode n => "node #" ++ Text.showNat n ++ " does not exist"
  | notAContainer n => "node #" ++ Text.showNat n ++ " cannot hold children"
  | notAChild p c => "node #" ++ Text.showNat c ++ " is not a child of #" ++ Text.showNat p
  | cycle n => "linking node #" ++ Text.showNat n ++ " would create a cycle"

/-- A change of a document that may fail and then keeps what it had already done. -/
abbrev Edit (α : Type) : Type := ExceptT TreeError (StateM Document) α

namespace Document

/-- The answer of an edit and the document after it. -/
def edit {α : Type} (d : Document) (e : Edit α) : Except TreeError α × Document := e.run.run d

/-- Adds an element that is not attached yet. -/
def createElement (tag : Tag) : Edit NodeId := fun d => (.ok d.size, d.push { tag })

/-- Adds a text node that is not attached yet. -/
def createText (text : String) : Edit NodeId := fun d => (.ok d.size, d.push { tag := .text, text })

/-- Why `child` may not be placed below `parent`. -/
def placementError? (d : Document) (parent child : NodeId) : Option TreeError :=
  match d.tag? parent with
  | none => some (.unknownNode parent)
  | some tag =>
    if !d.contains child then some (.unknownNode child)
    else if tag.isVoid then some (.notAContainer parent)
    else if child = root then some (.cycle child)
    else if child ∈ d.inclusiveAncestors parent then some (.cycle child)
    else none

/-- Takes a node out of its parent, if it has one. -/
def detach (d : Document) (child : NodeId) : Document :=
  match d.parent? child with
  | none => d
  | some p =>
    (d.update child fun node => { node with parent := none }).update p fun node =>
      { node with children := node.children.filter (· ≠ child) }

/-- Links a detached node to a parent, whose children become `place` of what they were. -/
def link (d : Document) (parent child : NodeId) (place : List NodeId → List NodeId) : Document :=
  (d.update child fun node => { node with parent := some parent }).update parent fun node =>
    { node with children := place node.children }

/-- Puts an entry ahead of the first `mark`, or at the end if there is none. -/
def insertAhead (mark new : NodeId) : List NodeId → List NodeId
  | [] => [new]
  | a :: rest => if a = mark then new :: a :: rest else a :: insertAhead mark new rest

/-- Moves a node to the end of the children of `parent`. -/
def appendChild (parent child : NodeId) : Edit Unit := fun d =>
  match d.placementError? parent child with
  | some e => (.error e, d)
  | none => (.ok (), (d.detach child).link parent child (· ++ [child]))

/-- Moves a node in front of a child of `parent`. -/
def insertBefore (parent child reference : NodeId) : Edit Unit := fun d =>
  match d.placementError? parent child with
  | some e => (.error e, d)
  | none =>
    if d.parent? reference ≠ some parent then (.error (.notAChild parent reference), d)
    else if child = reference then (.ok (), d)
    else
      let detached := d.detach child
      if reference ∈ detached.children parent then
        (.ok (), detached.link parent child (insertAhead reference child))
      else (.error (.notAChild parent reference), detached)

/-- Takes a child out of its parent. -/
def removeChild (parent child : NodeId) : Edit Unit := fun d =>
  if d.parent? child ≠ some parent then (.error (.notAChild parent child), d)
  else (.ok (), d.detach child)

/-- Sets an attribute of an element. -/
def setAttribute (n : NodeId) (name value : String) : Edit Unit := fun d =>
  match d.tag? n with
  | none => (.error (.unknownNode n), d)
  | some .text => (.error (.notAContainer n), d)
  | some _ =>
    (.ok (), d.update n fun node => { node with attributes := node.attributes.insert name value })

/-- Records the box of a node. -/
def setGeometry (n : NodeId) (box : BoxGeometry) : Edit Unit := fun d =>
  if d.contains n then (.ok (), d.update n fun node => { node with geometry := some box })
  else (.error (.unknownNode n), d)

/-- Changes the style of a node, and nothing if the index names none. -/
def updateStyle (d : Document) (n : NodeId) (f : Style → Style) : Document :=
  d.update n fun node => { node with style := f node.style }

/-- Replaces the style of a node, and nothing if the index names none. -/
def setStyle (d : Document) (n : NodeId) (style : Style) : Document :=
  d.updateStyle n fun _ => style

end Document

end FormPage
