import FormPage.Text.Integer

/-!
Indexed input names such as `Sender.Field[2]`. A name mentions a field where the field's text is
followed by a closing bracket later on the same line; `withIndex` replaces everything from the
first such place to the last bracket of that line.
-/

namespace FormPage.Row.IndexedName

/-- What follows the last closing bracket of the first line. -/
def afterBracket? : List Char → Option (List Char)
  | [] => none
  | c :: rest =>
    if c = '\n' then none
    else (afterBracket? rest).or (if c = ']' then some rest else none)

/-- Splits a name around the first mention of a field. -/
def split? (field : List Char) : List Char → Option (List Char × List Char)
  | [] => none
  | c :: rest =>
    match (field.isPrefixOf? (c :: rest)).bind afterBracket? with
    | some post => some ([], post)
    | none => (split? field rest).map fun s => (c :: s.1, s.2)

/-- `withIndex` on characters. -/
def withIndexChars (name field : List Char) (index : Int) : List Char :=
  match split? field name with
  | none => name
  | some (pre, post) => pre ++ field ++ '[' :: Text.decimal index ++ ']' :: post

/-- The name with its first mention of the field renumbered; a name without one stays as it is. The
field is matched as an escaped pattern, which is taken to compile: what is left out is the way out
for a pattern beyond the size limit of the matcher, where every name stays as it is. -/
def withIndex (name field : String) (index : Int) : String :=
  String.ofList (withIndexChars name.toList field.toList index)

example : withIndex "Sender.Field[0]" "Field" 1 = "Sender.Field[1]" := by decide

example : withIndex "Queue[1]" "Field" 2 = "Queue[1]" := by decide

end FormPage.Row.IndexedName
