import FormPage.Document.Walk
import FormPage.Submission.FormBody
import FormPage.Submission.Intent
import FormPage.Text.Ascii

/-!
What a form posts. `collect` gathers the successful controls of a form in document order: inputs
with a name unless they are buttons or unchecked boxes, and selects with the value of the chosen
option.
-/

namespace FormPage

/-- The content of a form at the moment it is sent. -/
structure Submission where
  action : Option String := none
  method : Option String := none
  /-- Names and values, in document order. -/
  fields : List (String × String) := []
deriving DecidableEq, Repr

namespace Submission

/-- The first value posted under a name. -/
def field? (s : Submission) (name : String) : Option String :=
  (s.fields.find? fun p => p.1 = name).map (·.2)

/-- The intent posted under a name. -/
def intent? (s : Submission) (name : String) : Option Intent :=
  (s.field? name).bind Intent.ofText?

/-- The body in which the fields are posted. -/
def body (s : Submission) : String := String.ofList (FormBody.encode s.fields)

end Submission

namespace Document

/-- The value that an input posts. -/
def inputValue? (d : Document) (n : NodeId) : Option String :=
  let kind := Text.lower ((d.attribute? n "type").getD "text")
  if kind ∈ ["button", "submit", "reset", "image"] then none
  else if kind ∈ ["checkbox", "radio"] then
    (d.attribute? n "checked").map fun _ => (d.attribute? n "value").getD "on"
  else some ((d.attribute? n "value").getD "")

/-- The value of a node: its attribute of that name, or else its text. -/
def valueOrText (d : Document) (n : NodeId) : String :=
  (d.attribute? n "value").getD (d.textContent n)

/-- The value that a select posts: that of its first selected option, or else of its first. -/
def selectValue? (d : Document) (n : NodeId) : Option String :=
  let options := (d.descendants n).filter fun m => d.tag? m = some .option
  let selected := options.find? fun m => (d.attribute? m "selected").isSome
  (selected.or options.head?).map d.valueOrText

/-- The pair that a node contributes to the form around it. -/
def postedPair? (d : Document) (n : NodeId) : Option (String × String) :=
  match (d.attribute? n "name").filter (· ≠ "") with
  | none => none
  | some name =>
    match d.tag? n with
    | some .input => (d.inputValue? n).map (name, ·)
    | some .select => (d.selectValue? n).map (name, ·)
    | _ => none

/-- What a form posts. -/
def collect (d : Document) (form : NodeId) : Submission where
  action := d.attribute? form "action"
  method := d.attribute? form "method"
  fields := (d.descendants form).filterMap d.postedPair?

/-- The first control of a form with a name. -/
def namedControl? (d : Document) (form : NodeId) (name : String) : Option NodeId :=
  (d.descendants form).find? fun n =>
    (d.tag? n = some .input || d.tag? n = some .button || d.tag? n = some .select) &&
      d.attribute? n "name" = some name

end Document

end FormPage
