import FormPage.Document.Edit
import FormPage.Document.Query
import FormPage.Submission.Collect

/-!
Requests: a control writes its intent into a field of its form, asks the user, and sends the form if
the user agrees. What the user is asked and what is sent are part of the answer, so a request is a
function of the document and of the user's reply.
-/

namespace FormPage.Request

/-- The name of the field that carries the intent unless a page chooses another. -/
def defaultField : String := "ConfigurationRequest"

/-- How a request ended. -/
inductive Outcome where
  | submitted | declined | missingForm | missingField
deriving DecidableEq, Repr

/-- What a request did outside the document. -/
structure Answer where
  outcome : Outcome
  /-- The questions put to the user. -/
  prompts : List String := []
  /-- The forms that were sent. -/
  submissions : List Submission := []
deriving DecidableEq, Repr

/-- Writes the intent of a control into the request field of its form and sends the form if the user
agrees. The field keeps the intent also when the user declines. -/
def send (d : Document) (control : NodeId) (value fieldName : String) (confirm : String → Bool) :
    Answer × Document :=
  match d.nearestAbove? (some control) .form with
  | none => ({ outcome := .missingForm }, d)
  | some form =>
    match d.namedControl? form fieldName with
    | none => ({ outcome := .missingField }, d)
    | some field =>
      let intent : Intent := ⟨(d.attribute? control "name").getD "", value⟩
      match d.edit (Document.setAttribute field "value" intent.text) with
      | (.error _, d) => ({ outcome := .missingField }, d)
      | (.ok (), d) =>
        let label := d.valueOrText control
        if confirm label then
          ({ outcome := .submitted, prompts := [label], submissions := [d.collect form] }, d)
        else ({ outcome := .declined, prompts := [label] }, d)

end FormPage.Request
