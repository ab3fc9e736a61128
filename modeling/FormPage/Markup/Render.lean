import FormPage.Document.Walk
import FormPage.Text.Integer

/-!
The markup of a tree. Every element is written as a start tag with its attributes, its content and
an end tag; an element that never has content is closed within its start tag. An inline style is
written as a last attribute, with only the properties that were set. Text and values are escaped, so
that they never begin a tag or end a value.
-/

namespace FormPage.Markup

/-- One character of a text. -/
def escapeTextChar (c : Char) : List Char :=
  if c = '&' then "&amp;".toList
  else if c = '<' then "&lt;".toList
  else if c = '>' then "&gt;".toList
  else [c]

/-- One character of the value of an attribute. -/
def escapeValueChar (c : Char) : List Char :=
  if c = '"' then "&quot;".toList else escapeTextChar c

/-- A text. -/
def escapeText (cs : List Char) : List Char := cs.flatMap escapeTextChar

/-- The value of an attribute. -/
def escapeValue (cs : List Char) : List Char := cs.flatMap escapeValueChar

/-- The properties of a style that were set, in a fixed order. -/
def properties (s : Style) : List (List Char) :=
  (match s.display with
    | .inline => []
    | d => ["display: ".toList ++ d.name.toList]) ++
  (match s.position with
    | .static => []
    | p => ["position: ".toList ++ p.name.toList]) ++
  (match s.left with
    | none => []
    | some x => ["left: ".toList ++ Text.decimal x.toInt ++ ['p', 'x']]) ++
  (match s.top with
    | none => []
    | some x => ["top: ".toList ++ Text.decimal x.toInt ++ ['p', 'x']])

/-- The text of an inline style. -/
def inlineStyle (s : Style) : List Char := [';', ' '].intercalate (properties s)

/-- An attribute with a value that is escaped already. -/
def nameAndValue (name value : List Char) : List Char := ' ' :: name ++ '=' :: '"' :: value ++ ['"']

/-- The attributes of an element, its inline style last. -/
def attributes (node : Node) : List Char :=
  (node.attributes.entries.flatMap fun e => nameAndValue e.1.toList (escapeValue e.2.toList)) ++
    (if (inlineStyle node.style).isEmpty then []
      else nameAndValue "style".toList (inlineStyle node.style))

/-- A node with the markup of its children. -/
def element (node : Node) (content : List (List Char)) : List Char :=
  if node.tag = .text then escapeText node.text.toList
  else
    let name := node.tag.markupName.toList
    let start := '<' :: name ++ attributes node
    if node.tag.isVoid then start ++ [' ', '/', '>']
    else start ++ '>' :: content.flatten ++ '<' :: '/' :: name ++ ['>']

/-- The markup of a node and all below it, nothing for an index that names no node. -/
def chars (d : Document) (n : NodeId) : List Char :=
  d.fold (fun _ node content => element node content) [] n

/-- The markup of a node and all below it. -/
def render (d : Document) (n : NodeId) : String := String.ofList (chars d n)

end FormPage.Markup
