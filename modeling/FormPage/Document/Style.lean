/-!
The inline style and the laid-out box of a node: the few properties that the behaviour of a page
reads and writes.
-/

namespace FormPage

/-- How a node is displayed. -/
inductive Display where
  | inline | block | none
deriving DecidableEq, Repr, Inhabited

namespace Display

/-- All ways to be displayed, in the order in which messages list them. -/
def all : List Display := [inline, block, none]

/-- The name of a way to be displayed. -/
def name : Display → String
  | inline => "inline"
  | block => "block"
  | none => "none"

end Display

/-- How a node is positioned. -/
inductive Position where
  | static | relative | absolute | fixed
deriving DecidableEq, Repr, Inhabited

namespace Position

/-- All positions, in the order in which messages list them. -/
def all : List Position := [static, relative, absolute, fixed]

/-- The name of a position. -/
def name : Position → String
  | static => "static"
  | relative => "relative"
  | absolute => "absolute"
  | fixed => "fixed"

/-- Whether a node with this position is the reference of what floats inside it. -/
def isPositioned : Position → Bool
  | static => false
  | _ => true

end Position

/-- The inline style of a node. -/
structure Style where
  display : Display := .inline
  position : Position := .static
  left : Option Int32 := none
  top : Option Int32 := none
deriving DecidableEq, Repr, Inhabited

namespace Style

/-- Whether nothing was set. -/
def isDefault (s : Style) : Bool := s = {}

/-- Whether the node and all below it are taken out of the layout. -/
def isHidden (s : Style) : Bool := s.display = .none

end Style

/-- The box of a laid-out node, relative to its positioned ancestor. -/
structure BoxGeometry where
  left : Int32 := 0
  top : Int32 := 0
  width : Int32 := 0
  height : Int32 := 0
deriving DecidableEq, Repr, Inhabited

end FormPage
