import FormPage.Text.Ascii

/-!
The kinds of node that a page is built from. Every kind has one name, and `ofName?_name` says that
a kind is found by its name.
-/

namespace FormPage

/-- The kind of a node: an element, or a run of text. -/
inductive Tag where
  | html | body | div | form | table | tbody | tr | td | th | input | button | select | option
  | label | span | text
deriving DecidableEq, Repr, Inhabited

namespace Tag

/-- All kinds, in the order in which messages list them. -/
def all : List Tag :=
  [html, body, div, form, table, tbody, tr, td, th, input, button, select, option, label, span,
    text]

/-- The name of a kind. -/
def name : Tag → String
  | html => "HTML"
  | body => "BODY"
  | div => "DIV"
  | form => "FORM"
  | table => "TABLE"
  | tbody => "TBODY"
  | tr => "TR"
  | td => "TD"
  | th => "TH"
  | input => "INPUT"
  | button => "BUTTON"
  | select => "SELECT"
  | option => "OPTION"
  | label => "LABEL"
  | span => "SPAN"
  | text => "#text"

/-- The name under which markup writes an element. -/
def markupName (t : Tag) : String := Text.lower t.name

/-- The kind with a name. -/
def ofName? (s : String) : Option Tag := all.find? fun t => t.name = s

/-- The kinds that never have children. -/
def isVoid : Tag → Bool
  | input | text => true
  | _ => false

/-- The kinds that hold the boxes of a table: static content is laid out against them. -/
def isTableBox : Tag → Bool
  | td | th | table => true
  | _ => false

/-- A kind is found by its name. -/
theorem ofName?_name (t : Tag) : ofName? t.name = some t := by
  cases t <;> rfl

end Tag

end FormPage
