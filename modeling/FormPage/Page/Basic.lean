import FormPage.Document.Layout
import FormPage.Page.Bindings
import FormPage.Page.Options

/-!
A page: its tree, its handlers, and the balloon that lives as long as the page. `react` delivers one
event; it runs the handler of the nearest node on the way up that has one, and reports what that did
outside the page.
-/

namespace FormPage

/-- One configuration page. -/
structure Page where
  title : Option String := none
  document : Document := .empty
  bindings : Bindings := ∅
  balloon : Balloon := {}
  options : PageOptions := {}
deriving DecidableEq, Repr

/-- What an event did. -/
inductive Outcome where
  /-- No node on the way up handles the event. -/
  | ignored
  /-- A row was added. -/
  | fieldAdded (row : NodeId)
  /-- There was no row to add. -/
  | fieldUnchanged
  /-- A request was made. -/
  | request (outcome : Request.Outcome)
  /-- The balloon was shown. -/
  | helpShown
  /-- The balloon has no place. -/
  | helpUnavailable
  /-- The balloon was hidden. -/
  | helpHidden
deriving DecidableEq, Repr

/-- The answer of a page to an event. -/
structure Reaction where
  outcome : Outcome
  /-- The questions put to the user. -/
  prompts : List String := []
  /-- The forms that were sent. -/
  submissions : List Submission := []
deriving DecidableEq, Repr

namespace Page

/-- The page of a document: its balloon is the element with the reserved id, if there is one. -/
def ofDocument (document : Document) (bindings : Bindings) (options : PageOptions)
    (title : Option String) : Page :=
  let fresh : Balloon :=
    { id := options.balloonId, cssClass := options.balloonClass, nudge := options.nudge }
  let (_, balloon, document) := fresh.adopt document
  { title, document, bindings, balloon, options }

/-- The node with an id, or else the first attached one with that name. -/
def findControl? (p : Page) (key : String) : Option NodeId :=
  (p.document.elementById? key).or
    ((p.document.descendants Document.root).find? fun n =>
      p.document.attribute? n "name" = some key)

/-- The nearest node on the way up that handles an event, and its action. -/
def handler? (p : Page) (target : NodeId) (event : Event) : Option (NodeId × Action) :=
  (p.document.inclusiveAncestors target).findSome? fun n =>
    (p.bindings.action? n event).map (n, ·)

/-- The field to which an action of a control adds a row: the one of the action, or the one that the
control names, or the one of the page. -/
def fieldFor (p : Page) (control : NodeId) (field : Option String) : String :=
  (field.or (Row.fieldName? p.document control)).getD p.options.defaultField

/-- Runs an action at a node. After a row was added the layout is made anew. -/
def run (p : Page) (n : NodeId) (confirm : String → Bool) : Action → Reaction × Page
  | .addField field =>
    match Row.add p.document n (p.fieldFor n field) with
    | (some row, document) =>
      ({ outcome := .fieldAdded row }, { p with document := document.relayout })
    | (none, document) => ({ outcome := .fieldUnchanged }, { p with document })
  | .setRequest value =>
    let (answer, document) := Request.send p.document n value p.options.requestField confirm
    ({ outcome := .request answer.outcome, prompts := answer.prompts
       submissions := answer.submissions }, { p with document })
  | .showHelp text =>
    let (shown, balloon, document) := p.balloon.showAt p.document n text
    ({ outcome := if shown then .helpShown else .helpUnavailable }, { p with balloon, document })
  | .hideHelp =>
    ({ outcome := .helpHidden }, { p with document := p.balloon.hide p.document })

/-- Delivers an event to a node; `confirm` is the user's reply to a question. -/
def react (p : Page) (target : NodeId) (event : Event) (confirm : String → Bool) :
    Reaction × Page :=
  match p.handler? target event with
  | none => ({ outcome := .ignored }, p)
  | some (n, action) => p.run n confirm action

end Page

end FormPage
