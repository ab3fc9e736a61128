import FormPage.Document.Basic
import FormPage.Page.Event
import FormPage.Text.Blank

/-!
Handlers. Each pair of a node and an event has at most one action; handlers are listed in the order
in which they were first bound.
-/

namespace FormPage

/-- What a handler does. -/
inductive Action where
  /-- Adds a row to a field, which the control names if the handler does not. -/
  | addField (field : Option String)
  /-- Sends the form with an intent of this value. -/
  | setRequest (value : String)
  /-- Shows the balloon with this text. -/
  | showHelp (text : String)
  /-- Hides the balloon. -/
  | hideHelp
deriving DecidableEq, Repr

/-- The handlers of a page. -/
structure Bindings where
  /-- The action of each bound pair of node and event. -/
  handlers : OrderedMap (NodeId × Event) Action := ∅
deriving DecidableEq, Repr

namespace Bindings

instance : EmptyCollection Bindings := ⟨{}⟩

/-- The action of a node for an event. -/
def action? (b : Bindings) (n : NodeId) (e : Event) : Option Action := b.handlers.get? (n, e)

/-- Binds an action, in place of the one that was bound before. -/
def bind (b : Bindings) (n : NodeId) (e : Event) (a : Action) : Bindings :=
  ⟨b.handlers.insert (n, e) a⟩

/-- Removes a handler. -/
def unbind (b : Bindings) (n : NodeId) (e : Event) : Bindings := ⟨b.handlers.erase (n, e)⟩

/-- Binds the two hover events so that a node explains itself by a text, whose blanks are
collapsed. -/
def bindHelp (b : Bindings) (n : NodeId) (text : String) : Bindings :=
  (b.bind n .mouseOver (.showHelp (Text.collapse text))).bind n .mouseOut .hideHelp

/-- The handlers of a node, oldest first. -/
def ofNode (b : Bindings) (n : NodeId) : List (Event × Action) :=
  b.handlers.entries.filterMap fun h => if h.1.1 = n then some (h.1.2, h.2) else none

/-- The number of handlers. -/
def size (b : Bindings) : Nat := b.handlers.size

/-- Whether nothing is bound. -/
def isEmpty (b : Bindings) : Bool := b.handlers.isEmpty

end Bindings

end FormPage
