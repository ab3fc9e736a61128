import FormPage.Text.Ascii

/-!
The events of a page. Every event has one name; a user may also write it in capitals or by a second
name, which `ofName?` accepts.
-/

namespace FormPage

/-- What happens to a node. -/
inductive Event where
  | click | mouseOver | mouseOut
deriving DecidableEq, Repr

namespace Event

/-- All events, in the order in which messages list them. -/
def all : List Event := [click, mouseOver, mouseOut]

/-- The name of an event. -/
def name : Event → String
  | click => "click"
  | mouseOver => "mouseover"
  | mouseOut => "mouseout"

/-- The names that a user may write for an event, in lower case. -/
def aliases : Event → List String
  | click => ["click"]
  | mouseOver => ["mouseover", "hover"]
  | mouseOut => ["mouseout", "leave"]

/-- The event that a user means by a name. -/
def ofName? (raw : String) : Option Event := all.find? fun e => Text.lower raw ∈ e.aliases

/-- What is said about a name that means no event. -/
def unknownName (raw : String) : String := "unknown event '" ++ Text.lower raw ++ "'"

/-- An event is found by its own name. -/
theorem ofName?_name (e : Event) : ofName? e.name = some e := by
  cases e <;> decide

end Event

end FormPage
