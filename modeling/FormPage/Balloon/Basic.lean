import FormPage.Balloon.Placement
import FormPage.Document.Edit
import FormPage.Text.Blank

/-!
The help balloon of a page. It is one element, found by a reserved id or built on the first
showing, with a region for the text; afterwards it is only refilled, moved and hidden.
-/

namespace FormPage

/-- The nodes of a balloon that exists in the tree. -/
structure BalloonParts where
  /-- The balloon itself. -/
  element : NodeId
  /-- The child that holds the text. -/
  textRegion : NodeId
deriving DecidableEq, Repr

/-- The help balloon of a page, built or not. -/
structure Balloon where
  /-- The reserved id of its element. -/
  id : String := "balloon_help"
  /-- The class of a newly built element. -/
  cssClass : String := "tip"
  /-- Its shift from the corner of what it explains. -/
  nudge : Nudge := .standard
  /-- Its nodes, once they exist. -/
  parts : Option BalloonParts := none
deriving DecidableEq, Repr

namespace Balloon

open Document (createElement createText appendChild removeChild setAttribute)

/-- The element of the balloon, once it exists. -/
def element? (b : Balloon) : Option NodeId := b.parts.map (·.element)

/-- The region that holds the text, once it exists. -/
def textRegion? (b : Balloon) : Option NodeId := b.parts.map (·.textRegion)

/-- Whether the balloon is to be seen. -/
def isVisible (b : Balloon) (d : Document) : Bool :=
  match b.element?.bind d.style? with
  | none => false
  | some style => !style.isHidden

/-- Whether a class is among the classes of a node. -/
def hasClass (d : Document) (n : NodeId) (cssClass : String) : Bool :=
  match d.attribute? n "class" with
  | none => false
  | some classes => (Text.words classes.toList).contains cssClass.toList

/-- Changes the style of a node as a step of an edit. -/
def restyle (n : NodeId) (f : Style → Style) : Edit Unit := fun d => (.ok (), d.updateStyle n f)

/-- Adds a decorated edge below the balloon. -/
def appendBand (element : NodeId) (cssClass : String) : Edit Unit := do
  let band ← createElement .span
  setAttribute band "class" cssClass
  restyle band fun s => { s with display := .block }
  appendChild element band

/-- Adds the region that holds the text. -/
def appendTextRegion (element : NodeId) : Edit NodeId := do
  let region ← createElement .span
  setAttribute region "class" "text"
  appendChild element region
  return region

/-- Builds the element of a balloon below the body. -/
def build (id cssClass : String) : Edit BalloonParts := do
  let element ← createElement .span
  setAttribute element "id" id
  setAttribute element "class" cssClass
  restyle element fun s => { s with position := .absolute }
  appendBand element "top"
  let textRegion ← appendTextRegion element
  appendBand element "bottom"
  appendChild Document.body element
  return { element, textRegion }

/-- Takes over the element that carries the reserved id, if the tree has one. Its first child of the
class `text` becomes the region for the text; without such a child a region is added, and the
answer is `false` if the element cannot hold one. -/
def adopt (b : Balloon) (d : Document) : Bool × Balloon × Document :=
  if b.parts.isSome then (true, b, d)
  else
    match d.elementById? b.id with
    | none => (false, b, d)
    | some element =>
      match (d.children element).find? fun n => hasClass d n "text" with
      | some textRegion => (true, { b with parts := some { element, textRegion } }, d)
      | none =>
        match d.edit (appendTextRegion element) with
        | (.error _, d) => (false, b, d)
        | (.ok textRegion, d) => (true, { b with parts := some { element, textRegion } }, d)

/-- The nodes of the balloon, which are adopted or built where there are none. -/
def ensure (b : Balloon) (d : Document) : Except TreeError BalloonParts × Balloon × Document :=
  let (_, b, d) := b.adopt d
  match b.parts with
  | some parts => (.ok parts, b, d)
  | none =>
    match d.edit (build b.id b.cssClass) with
    | (.error e, d) => (.error e, b, d)
    | (.ok parts, d) => (.ok parts, { b with parts := some parts }, d)

/-- Takes a child out, and does nothing where it is none. -/
def clearChild (region : NodeId) (d : Document) (child : NodeId) : Document :=
  (d.edit (removeChild region child)).2

/-- Replaces all content of the text region by one text. -/
def fill (region : NodeId) (text : String) : Edit Unit := do
  modify fun d => (d.children region).foldl (clearChild region) d
  let content ← createText text
  appendChild region content

/-- Shows the balloon with a text next to a node. The answer is `false` where it has no place, or
where its nodes cannot be built or filled. -/
def showAt (b : Balloon) (d : Document) (target : NodeId) (text : String) :
    Bool × Balloon × Document :=
  match d.balloonPlacement? target b.nudge with
  | none => (false, b, d)
  | some place =>
    match b.ensure d with
    | (.error _, b, d) => (false, b, d)
    | (.ok parts, b, d) =>
      match d.edit (fill parts.textRegion text) with
      | (.error _, d) => (false, b, d)
      | (.ok (), d) =>
        (d.contains parts.element, b, d.updateStyle parts.element fun s =>
          { s with display := .block, left := some place.left, top := some place.top })

/-- Hides the balloon, if it exists. -/
def hide (b : Balloon) (d : Document) : Document :=
  match b.element? with
  | none => d
  | some element => d.updateStyle element fun s => { s with display := .none }

end Balloon

end FormPage
