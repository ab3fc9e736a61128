import FormPage.Page.Basic

/-!
The page document: what a page is loaded from and what it is saved as. A `NodeSpec` describes one
node with all below it; an element may give `text` as a short form for a first child of text.
-/

namespace FormPage

/-- The description of a node and of all below it. -/
structure NodeSpec where
  tag : Tag
  attributes : OrderedMap String String := ∅
  text : Option String := none
  style : Style := {}
  geometry : Option BoxGeometry := none
  on : OrderedMap Event Action := ∅
  children : List NodeSpec := []
deriving Repr

instance : Inhabited NodeSpec := ⟨{ tag := .span }⟩

/-- The description of a page: its title, its choices and the content of its body. -/
structure PageSpec where
  title : Option String := none
  options : PageOptions := {}
  body : List NodeSpec := []
deriving Repr, Inhabited

end FormPage
