import FormPage.Json.Basic
import FormPage.Number.Shortest
import FormPage.Text.Integer

/-!
JSON text. `compact` writes a value without blanks, `pretty` with one member or item a line, two
spaces for each level. Strings escape the quote, the backslash and the control characters.
-/

namespace FormPage.Json

/-- One character of a string. -/
def escapeChar (c : Char) : List Char :=
  if c = '"' then ['\\', '"']
  else if c = '\\' then ['\\', '\\']
  else if c = '\x08' then ['\\', 'b']
  else if c = '\t' then ['\\', 't']
  else if c = '\n' then ['\\', 'n']
  else if c = '\x0c' then ['\\', 'f']
  else if c = '\r' then ['\\', 'r']
  else if c.toNat < 0x20 then '\\' :: 'u' :: Text.lowerHex 4 c.toNat
  else [c]

/-- A string in quotes. -/
def quote (s : String) : List Char := '"' :: s.toList.flatMap escapeChar ++ ['"']

mutual

/-- A value without blanks. -/
def compact : Json → List Char
  | .null => "null".toList
  | .bool true => "true".toList
  | .bool false => "false".toList
  | .int n => Text.decimal n
  | .float x => x.text.toList
  | .str s => quote s
  | .arr [] => ['[', ']']
  | .arr (x :: xs) => '[' :: compact x ++ compactItems xs ++ [']']
  | .obj [] => ['\x7b', '\x7d']
  | .obj ((k, v) :: ms) => '\x7b' :: quote k ++ ':' :: compact v ++ compactMembers ms ++ ['\x7d']

/-- Further items, each after a comma. -/
def compactItems : List Json → List Char
  | [] => []
  | x :: xs => ',' :: compact x ++ compactItems xs

/-- Further members, each after a comma. -/
def compactMembers : List (String × Json) → List Char
  | [] => []
  | (k, v) :: ms => ',' :: quote k ++ ':' :: compact v ++ compactMembers ms

end

/-- The start of a line at a level. -/
def newLine (level : Nat) : List Char := '\n' :: List.replicate (2 * level) ' '

mutual

/-- A value that begins at a level, with its items and members on lines of the next one. -/
def prettyAt (level : Nat) : Json → List Char
  | .null => "null".toList
  | .bool true => "true".toList
  | .bool false => "false".toList
  | .int n => Text.decimal n
  | .float x => x.text.toList
  | .str s => quote s
  | .arr [] => ['[', ']']
  | .arr (x :: xs) =>
    '[' :: newLine (level + 1) ++ prettyAt (level + 1) x ++ prettyItems (level + 1) xs ++
      newLine level ++ [']']
  | .obj [] => ['\x7b', '\x7d']
  | .obj ((k, v) :: ms) =>
    '\x7b' :: newLine (level + 1) ++ quote k ++ ':' :: ' ' :: prettyAt (level + 1) v ++
      prettyMembers (level + 1) ms ++ newLine level ++ ['\x7d']

/-- Further items, each after a comma on a line of its own. -/
def prettyItems (level : Nat) : List Json → List Char
  | [] => []
  | x :: xs => ',' :: newLine level ++ prettyAt level x ++ prettyItems level xs

/-- Further members, each after a comma on a line of its own. -/
def prettyMembers (level : Nat) : List (String × Json) → List Char
  | [] => []
  | (k, v) :: ms =>
    ',' :: newLine level ++ quote k ++ ':' :: ' ' :: prettyAt level v ++ prettyMembers level ms

end

/-- The text of a value without blanks. -/
def compactText (j : Json) : String := String.ofList j.compact

/-- The text of a value with one member or item a line. -/
def prettyText (j : Json) : String := String.ofList (j.prettyAt 0)

end FormPage.Json
