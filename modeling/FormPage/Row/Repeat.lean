import FormPage.Document.Edit
import FormPage.Document.Query
import FormPage.Row.IndexedName
import FormPage.Row.Label

/-!
Repeating a table row. The row of an "add" control stands below the rows of its field; a new row is
numbered after the nearest row above, copies the type and the size of that row's input, and goes in
between.
-/

namespace FormPage.Row

open Document (createElement createText appendChild insertBefore setAttribute)

/-- The name of a field whose control carries none. -/
def defaultField : String := "Field"

/-- What a new row takes from the rows that are there. -/
structure Template where
  /-- The row of the control, in front of which the new row goes. -/
  anchor : NodeId
  /-- The node that holds the rows. -/
  container : NodeId
  /-- The number of the nearest row above. -/
  index : Int
  /-- The `type` of that row's input. -/
  inputType : Option String
  /-- The `size` of that row's input. -/
  inputSize : Option String
  /-- The `name` of that row's input. -/
  inputName : String
deriving DecidableEq, Repr

/-- Finds the rows around a control: its own row, the nearest row above, that row's first cell with
the label, and the next cell with the input. -/
def Template.locate? (d : Document) (control : NodeId) (field : String) : Option Template := do
  let anchor ← d.nearestAbove? (some control) .tr
  let container ← d.upward? anchor
  let above ← d.nearestBefore? (d.previousSibling? anchor) .tr
  let labelCell ← d.firstChildTagged? (some above) .td
  let inputCell := d.nearestAfter? (d.nextSibling? labelCell) .td
  let input ← d.firstChildTagged? inputCell .input
  return {
    anchor, container
    index := Label.number (d.textContent labelCell) field
    inputType := d.attribute? input "type"
    inputSize := d.attribute? input "size"
    inputName := (d.attribute? input "name").getD "" }

/-- Copies an attribute, if there is one to copy. -/
def copyAttribute (n : NodeId) (name : String) : Option String → Edit Unit
  | none => pure ()
  | some value => setAttribute n name value

/-- Builds the row with a number and puts it in front of the control's row. -/
def insertRow (t : Template) (field : String) (number : Int) : Edit NodeId := do
  let row ← createElement .tr
  let labelCell ← createElement .td
  let label ← createText (Label.text field number)
  let inputCell ← createElement .td
  let input ← createElement .input
  appendChild labelCell label
  appendChild row labelCell
  copyAttribute input "type" t.inputType
  copyAttribute input "size" t.inputSize
  setAttribute input "name" (IndexedName.withIndex t.inputName field number)
  appendChild inputCell input
  appendChild row inputCell
  insertBefore t.container row t.anchor
  return row

/-- Adds a row to a field. There is none to add where the rows are not found, or where the number of
the nearest row above is the last one of 64 bits. -/
def add (d : Document) (control : NodeId) (field : String) : Option NodeId × Document :=
  match Template.locate? d control field with
  | none => (none, d)
  | some t =>
    if Text.Fits64 (t.index + 1) then
      let (row, after) := d.edit (insertRow t field (t.index + 1))
      (row.toOption, after)
    else (none, d)

/-- The name that a control gives its field, if it is not empty. -/
def fieldName? (d : Document) (control : NodeId) : Option String :=
  (d.attribute? control "name").filter (· ≠ "")

/-- Adds a row to the field that a control names. -/
def addNamed (d : Document) (control : NodeId) : Option NodeId × Document :=
  add d control ((fieldName? d control).getD defaultField)

end FormPage.Row
