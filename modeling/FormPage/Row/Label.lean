import FormPage.Text.Blank
import FormPage.Text.Integer

/-!
The label of a repeated row: the field's name and the number of the row. `number` reads the number
that a label shows, `text` writes the label for a number.
-/

namespace FormPage.Row.Label

/-- Drops the blanks in front of the field and the field itself. Where the field begins with blanks
it is taken as late as possible. -/
def afterField? (field : List Char) : List Char → Option (List Char)
  | [] => field.isPrefixOf? []
  | c :: rest =>
    if Text.isBlank c then (afterField? field rest).or (field.isPrefixOf? (c :: rest))
    else field.isPrefixOf? (c :: rest)

/-- The number of 64 bits in a text, blanks around it apart; any other text counts as zero. -/
def numberOf (cs : List Char) : Int :=
  match Text.signed? (Text.trim cs) with
  | some n => if Text.Fits64 n then n else 0
  | none => 0

/-- The number that a label shows behind the field's name. A label that does not begin with the
name is read as a whole. The name is matched as an escaped pattern, which is taken to compile: what
is left out is the way out for a pattern beyond the size limit of the matcher, where the label is
read as a whole too. -/
def number (label field : String) : Int :=
  numberOf ((afterField? field.toList label.toList).getD label.toList)

/-- The label of a row. -/
def text (field : String) (n : Int) : String := field ++ " " ++ Text.showInt n

example : number "  Field   12 " "Field" = 12 := by decide

example : number "Other 4" "Field" = 0 := by decide

end FormPage.Row.Label
