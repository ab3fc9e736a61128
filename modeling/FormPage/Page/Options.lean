import FormPage.Balloon.Basic
import FormPage.Row.Repeat
import FormPage.Submission.Request

/-!
The names and offsets that a page may choose for itself.
-/

namespace FormPage

/-- The choices of a page. -/
structure PageOptions where
  /-- The field of a form that carries the intent. -/
  requestField : String := Request.defaultField
  /-- The reserved id of the balloon. -/
  balloonId : String := "balloon_help"
  /-- The class of a newly built balloon. -/
  balloonClass : String := "tip"
  /-- The shift of the balloon. -/
  nudge : Nudge := .standard
  /-- The name of a field whose control carries none. -/
  defaultField : String := Row.defaultField
deriving DecidableEq, Repr, Inhabited

end FormPage
