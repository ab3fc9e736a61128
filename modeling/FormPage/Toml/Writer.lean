import FormPage.Json.Basic
import FormPage.Number.Shortest
import FormPage.Text.Integer
import FormPage.Text.Ascii

/-!
Writing TOML documents. A table lists its plain values first and then its tables and arrays of
tables, each under a header with its full path; a table that has nothing but further tables needs no
header. Strings are written in the first kind of quotes that needs no escapes.
-/

namespace FormPage.Toml

/-- What a string needs from the quotes around it. -/
structure Needs where
  /-- Some character can only be written by an escape. -/
  escapes : Bool
  /-- There is a backslash. -/
  backslash : Bool
  /-- There is a line end. -/
  lines : Bool
  /-- The longest run of single quotes. -/
  singles : Nat
  /-- The longest run of double quotes. -/
  doubles : Nat
deriving Repr

/-- The longest run of a character after `current` of them. -/
def longestRun (c : Char) (current : Nat) : List Char → Nat
  | [] => current
  | d :: rest =>
    if d = c then longestRun c (current + 1) rest else max current (longestRun c 0 rest)

/-- What a string needs. -/
def Needs.of (cs : List Char) : Needs where
  escapes := cs.any fun c => (c.toNat < 0x20 && c ≠ '\t' && c ≠ '\n') || c.toNat = 0x7F
  backslash := cs.contains '\\'
  lines := cs.contains '\n'
  singles := longestRun '\'' 0 cs
  doubles := longestRun '"' 0 cs

/-- One character between double quotes. -/
def escapeChar (c : Char) : List Char :=
  if c = '\x08' then ['\\', 'b']
  else if c = '\t' then ['\\', 't']
  else if c = '\n' then ['\\', 'n']
  else if c = '\x0c' then ['\\', 'f']
  else if c = '\r' then ['\\', 'r']
  else if c = '"' then ['\\', '"']
  else if c = '\\' then ['\\', '\\']
  else if c.toNat < 0x20 || c.toNat = 0x7F then '\\' :: 'u' :: Text.upperHex 4 c.toNat
  else [c]

/-- The characters between three double quotes, of which `doubles` quotes came before: line ends
stay, and so do two quotes in a row. -/
def escapeLong (doubles : Nat) : List Char → List Char
  | [] => []
  | c :: rest =>
    if c = '"' then
      if doubles < 2 then '"' :: escapeLong (doubles + 1) rest else '\\' :: '"' :: escapeLong 0 rest
    else if c = '\n' then '\n' :: escapeLong 0 rest
    else escapeChar c ++ escapeLong 0 rest

/-- A line end after three opening quotes, if the string has lines. -/
def opening (n : Needs) : List Char := if n.lines then ['\n'] else []

/-- A string. -/
def writeString (s : String) : List Char :=
  let cs := s.toList
  let n := Needs.of cs
  if !n.escapes && !n.backslash && n.doubles = 0 && !n.lines then
    '"' :: cs.flatMap escapeChar ++ ['"']
  else if !n.escapes && n.singles = 0 && !n.lines then '\'' :: cs ++ ['\'']
  else if !n.escapes && !n.backslash && n.doubles ≤ 2 then
    "\"\"\"".toList ++ opening n ++ escapeLong 0 cs ++ "\"\"\"".toList
  else if !n.escapes && n.singles ≤ 2 then "'''".toList ++ opening n ++ cs ++ "'''".toList
  else if n.lines then "\"\"\"".toList ++ opening n ++ escapeLong 0 cs ++ "\"\"\"".toList
  else '"' :: cs.flatMap escapeChar ++ ['"']

/-- A key, in quotes unless all its characters are bare. -/
def writeKey (k : String) : List Char :=
  let cs := k.toList
  let n := Needs.of cs
  if !cs.isEmpty && cs.all (fun c => Text.isAlphanumeric c || c = '-' || c = '_') then cs
  else if !n.escapes && !n.backslash && n.doubles = 0 && !n.lines then
    '"' :: cs.flatMap escapeChar ++ ['"']
  else if !n.escapes && n.singles = 0 && !n.lines then '\'' :: cs ++ ['\'']
  else '"' :: cs.flatMap escapeChar ++ ['"']

/-- Whether a value is a table. -/
def isTable : Json → Bool
  | .obj _ => true
  | _ => false

/-- Whether a value is written under headers of its own. -/
def hasHeader : Json → Bool
  | .obj _ => true
  | .arr (x :: xs) => (x :: xs).all isTable
  | _ => false

mutual

/-- A value within a line. -/
def writeValue : Json → List Char
  | .null => []
  | .bool true => "true".toList
  | .bool false => "false".toList
  | .int n => Text.decimal n
  | .float x => x.text.toList
  | .str s => writeString s
  | .arr items => '[' :: writeItems items ++ [']']
  | .obj members => '\x7b' :: writeMembers members ++ ['\x7d']

/-- The items of an array within a line. -/
def writeItems : List Json → List Char
  | [] => []
  | [v] => writeValue v
  | v :: rest => writeValue v ++ ',' :: ' ' :: writeItems rest

/-- The members of a table within a line. -/
def writeMembers : List (String × Json) → List Char
  | [] => []
  | [(k, v)] => ' ' :: writeKey k ++ ' ' :: '=' :: ' ' :: writeValue v ++ [' ']
  | (k, v) :: rest =>
    ' ' :: writeKey k ++ ' ' :: '=' :: ' ' :: writeValue v ++ ',' :: writeMembers rest

end

/-- A path of keys. -/
def writePath (path : List String) : List Char := ['.'].intercalate (path.map writeKey)

/-- The plain values of a table, one a line. -/
def writePlain (members : List (String × Json)) : List Char :=
  (members.filter fun m => !hasHeader m.2).flatMap fun m =>
    writeKey m.1 ++ ' ' :: '=' :: ' ' :: writeValue m.2 ++ ['\n']

/-- Whether a table is written only as the path of the tables below it. -/
def isImplied (members : List (String × Json)) : Bool :=
  !members.isEmpty && members.all fun m => hasHeader m.2

mutual

/-- The blocks of the tables among some members, each with its header: first the values of the
table, then the tables below it. -/
def writeTables (path : List String) : List (String × Json) → List (List Char)
  | [] => []
  | (k, v) :: rest => writeTable (path ++ [k]) v ++ writeTables path rest

/-- The blocks of a value, if it is a table or an array of tables. -/
def writeTable (path : List String) : Json → List (List Char)
  | .obj members =>
    (if isImplied members then []
      else ['[' :: writePath path ++ ']' :: '\n' :: writePlain members]) ++
      writeTables path members
  | .arr (x :: xs) => if (x :: xs).all isTable then writeElements path (x :: xs) else []
  | _ => []

/-- The blocks of the elements of an array of tables. -/
def writeElements (path : List String) : List Json → List (List Char)
  | [] => []
  | .obj members :: rest =>
    ('[' :: '[' :: writePath path ++ ']' :: ']' :: '\n' :: writePlain members) ::
      writeTables path members ++ writeElements path rest
  | _ :: rest => writeElements path rest

end

/-- The text of a document: its blocks, with an empty line between them. -/
def text : Json → String
  | .obj members =>
    let plain := writePlain members
    let blocks := (if plain.isEmpty then [] else [plain]) ++ writeTables [] members
    String.ofList (['\n'].intercalate blocks)
  | j => String.ofList (writeValue j)

end FormPage.Toml
