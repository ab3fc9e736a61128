import FormPage.Document.Walk
import FormPage.Text.Integer

/-!
Where a balloon goes. The corner is the size of the target's first child plus the offsets of that
child and of every positioned ancestor; all sums have to stay within 32 bits, and the final shift
stops at the ends of that range.
-/

namespace FormPage

/-- How far a balloon is shifted up and to the left of the corner. -/
structure Nudge where
  left : Int32
  top : Int32
deriving DecidableEq, Repr

namespace Nudge

/-- The shift of a page that sets none. -/
def standard : Nudge := ⟨40, 15⟩

instance : Inhabited Nudge := ⟨standard⟩

end Nudge

/-- The corner of a placed balloon. -/
structure Placement where
  left : Int32
  top : Int32
deriving DecidableEq, Repr

namespace Document

/-- The box of a node, empty if the layout reported none. -/
def box (d : Document) (n : NodeId) : BoxGeometry := (d.geometry? n).getD {}

/-- The sum of two offsets, if it fits 32 bits. -/
def addOffset (a b : Int32) : Option Int32 := Text.word32? (a.toInt + b.toInt)

/-- Adds one offset after the other, if every sum on the way fits 32 bits. -/
def sumOffsets (first : Int32) (offsets : List Int32) : Option Int32 :=
  offsets.foldlM addOffset first

/-- The difference of two offsets, or the end of the 32-bit range that it would pass. -/
def shiftBack (a b : Int32) : Int32 := Text.clamp32 (a.toInt - b.toInt)

/-- Where a balloon for a node goes; there is no place where the layout reports no positioned
ancestor for the node's first child, or where a sum leaves the range. -/
def balloonPlacement? (d : Document) (target : NodeId) (nudge : Nudge) : Option Placement := do
  let anchor ← d.firstChild? target
  let _ ← d.offsetParent? anchor
  let boxes := (d.offsetChain anchor).map d.box
  let left ← sumOffsets (d.box anchor).width (boxes.map (·.left))
  let top ← sumOffsets (d.box anchor).height (boxes.map (·.top))
  return ⟨shiftBack left nudge.left, shiftBack top nudge.top⟩

end Document

end FormPage
