import FormPage.Page.Basic

/-!
What a replay tells about each event: the question it raised, the form it sent, and how it ended.
-/

namespace FormPage.Replay

/-- How an event ended. -/
def describe : Outcome → String
  | .ignored => "no handler"
  | .fieldAdded row => "added row #" ++ Text.showNat row
  | .fieldUnchanged => "no repeated field row found"
  | .request .submitted => "submitted"
  | .request .declined => "declined"
  | .request .missingForm => "not inside a form"
  | .request .missingField => "form has no request field"
  | .helpShown => "help shown"
  | .helpUnavailable => "help unavailable"
  | .helpHidden => "help hidden"

/-- The line about a form that was sent; it goes by GET to the page itself unless the form says
otherwise. -/
def sentLine (s : Submission) : String :=
  "submit " ++ s.method.getD "GET" ++ " " ++ s.action.getD "#" ++ ": " ++ s.body ++ "\n"

/-- The line about a question whose reply was given before. -/
def repliedLine (question : String) (reply : Bool) : String :=
  "confirm '" ++ question ++ "': " ++ (if reply then "yes" else "no") ++ "\n"

/-- What stands before the user's reply to a question. -/
def questionText (question : String) : String := question ++ "? [y/N] "

/-- Whether a line agrees. -/
def agrees (line : String) : Bool :=
  let said := Text.lower (String.ofList (Text.trim line.toList))
  said = "y" || said = "yes"

end FormPage.Replay
