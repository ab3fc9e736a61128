import FormPage.Yaml.Scalar
import FormPage.Yaml.Cursor
import FormPage.Number.Shortest

/-!
Writing YAML documents, in block style with two columns for each level. A text is written plain
where it reads back as itself; else in single quotes, as a literal block if it has line ends, and in
double quotes if only escapes can say it.
-/

namespace FormPage.Yaml

/-- A character that can be written as it is. -/
def isPrintable (c : Char) : Bool :=
  let n := c.toNat
  n = 0x0A || (0x20 ≤ n && n ≤ 0x7E) || (0xA0 ≤ n && n ≤ 0xFFFD && n ≠ 0xFEFF) || 0x10000 ≤ n

/-- Whether some character satisfies `p` and the one after it `q`. -/
def hasPair (p q : Char → Bool) (cs : List Char) : Bool :=
  (cs.zip (cs.drop 1)).any fun d => p d.1 && q d.2

/-- Whether a text would be taken for structure if it stood without quotes. -/
def looksStructured (cs : List Char) : Bool :=
  cs.take 3 = ['-', '-', '-'] || cs.take 3 = ['.', '.', '.'] ||
    (match cs with
      | [] => false
      | c :: rest =>
        "#,[]\x7b\x7d&*!|>'\"%@`".toList.contains c ||
          ((c = '?' || c = ':' || c = '-') && (rest.isEmpty || rest.head? = some ' '))) ||
    hasPair (· = ':') (· = ' ') cs || cs.getLast? = some ':' ||
    hasPair (· = ' ') (· = '#') cs

/-- Whether only escapes can say a text: for a character that cannot be written, or for a blank at
the end of a line. -/
def needsEscapes (cs : List Char) : Bool :=
  cs.any (fun c => !isPrintable c) || hasPair (· = ' ') isBreak cs

/-- Whether a text can stand without quotes. -/
def allowsPlain (cs : List Char) : Bool :=
  !needsEscapes cs && !cs.any isBreak && cs.head? ≠ some ' ' && cs.getLast? ≠ some ' ' &&
    !looksStructured cs

/-- Whether a text can stand in single quotes. -/
def allowsSingle (cs : List Char) : Bool := !needsEscapes cs && !hasPair isBreak (· = ' ') cs

/-- Whether a text can stand in a literal block. -/
def allowsBlock (cs : List Char) : Bool := !needsEscapes cs && cs.getLast? ≠ some ' '

/-- A way to write a text. -/
inductive Style where
  | plain | single | double | block
deriving DecidableEq, Repr

/-- The way to write a text. -/
def Style.of (s : String) : Style :=
  let cs := s.toList
  if cs.contains '\n' then if allowsBlock cs then .block else .double
  else if (special? s).isNone && !hasNeedlessZero cs && allowsPlain cs then .plain
  else if allowsSingle cs then .single
  else .double

/-- Blanks that bring a line to a column. -/
def pad (column : Nat) : List Char := List.replicate column ' '

/-- The characters of a literal block, each line at the column `indent`; `fresh` tells that a line
begins. The last line gets an end if it has none. -/
def blockChars (indent : Nat) (fresh : Bool) : List Char → List Char
  | [] => if fresh then [] else ['\n']
  | c :: rest =>
    if isBreak c then c :: blockChars indent true rest
    else (if fresh then pad indent else []) ++ c :: blockChars indent false rest

/-- What stands behind the bar of a literal block: the columns of its lines if that does not show,
and how it ends. -/
def blockHints (cs : List Char) : List Char :=
  let digit : List Char :=
    match cs with
    | [] => []
    | c :: _ => if c = ' ' || isBreak c then ['2'] else []
  let chomp : List Char :=
    match cs.reverse with
    | [] => ['-']
    | c :: before =>
      if !isBreak c then ['-']
      else if (before.head?.map isBreak).getD true then ['+']
      else []
  digit ++ chomp

/-- The characters between single quotes, with lines after the first at the column `indent`. -/
def singleChars (indent : Nat) (fresh : Bool) : List Char → List Char
  | [] => if fresh then pad indent else []
  | c :: rest =>
    if isBreak c then c :: singleChars indent true rest
    else
      (if fresh && c ≠ ' ' then pad indent else []) ++ (if c = '\'' then [c, c] else [c]) ++
        singleChars indent (fresh && c = ' ') rest

/-- One character between double quotes. -/
def escapeChar (c : Char) : List Char :=
  if isPrintable c && !isBreak c && c ≠ '"' && c ≠ '\\' then [c]
  else
    '\\' ::
      match c with
      | '\x00' => ['0']
      | '\x07' => ['a']
      | '\x08' => ['b']
      | '\t' => ['t']
      | '\n' => ['n']
      | '\x0b' => ['v']
      | '\x0c' => ['f']
      | '\r' => ['r']
      | '\x1b' => ['e']
      | '"' => ['"']
      | '\\' => ['\\']
      | '\u0085' => ['N']
      | '\u2028' => ['L']
      | '\u2029' => ['P']
      | c =>
        if c.toNat ≤ 0xFF then 'x' :: Text.upperHex 2 c.toNat else 'u' :: Text.upperHex 4 c.toNat

/-- A text inside a collection at the column `indent`, to the end of its last line. -/
def writeText (indent : Nat) (s : String) : List Char :=
  let cs := s.toList
  match Style.of s with
  | .plain => cs ++ ['\n']
  | .single => '\'' :: singleChars (indent + 2) false cs ++ ['\'', '\n']
  | .double => '"' :: cs.flatMap escapeChar ++ ['"', '\n']
  | .block => '|' :: blockHints cs ++ '\n' :: blockChars (indent + 2) true cs

/-- A value that stands on the line it begins on, inside a collection at the column `indent`. -/
def writeScalar (indent : Nat) : Json → List Char
  | .null => "null\n".toList
  | .bool true => "true\n".toList
  | .bool false => "false\n".toList
  | .int n => Text.decimal n ++ ['\n']
  | .float x => x.text.toList ++ ['\n']
  | .str s => writeText indent s
  | .arr _ => "[]\n".toList
  | .obj _ => "\x7b\x7d\n".toList

/-- Whether a key can stand on one line with its value. -/
def isSimpleKey (k : String) : Bool := !k.toList.any isBreak && k.utf8ByteSize ≤ 128

mutual

/-- A value after the dash of an item or after the colon of a key that has a line of its own: a
collection begins on the same line, at the next level. -/
def writeNested (indent : Nat) : Json → List Char
  | .arr (x :: xs) => writeItems (indent + 2) true (x :: xs)
  | .obj (m :: ms) => writeMembers (indent + 2) true (m :: ms)
  | j => writeScalar indent j

/-- A value after a key and its colon: a collection begins on the next line, a list at the column of
the key itself. -/
def writeBelow (indent : Nat) : Json → List Char
  | .arr (x :: xs) => '\n' :: writeItems indent false (x :: xs)
  | .obj (m :: ms) => '\n' :: writeMembers (indent + 2) false (m :: ms)
  | j => ' ' :: writeScalar indent j

/-- The items of a list at the column `indent`; `started` tells that the first line has come to that
column. -/
def writeItems (indent : Nat) (started : Bool) : List Json → List Char
  | [] => []
  | x :: xs =>
    (if started then [] else pad indent) ++ '-' :: ' ' :: writeNested indent x ++
      writeItems indent false xs

/-- The members of a mapping at the column `indent`. -/
def writeMembers (indent : Nat) (started : Bool) : List (String × Json) → List Char
  | [] => []
  | (k, v) :: ms =>
    (if started then [] else pad indent) ++
      (if isSimpleKey k then (writeText indent k).dropLast ++ ':' :: writeBelow indent v
        else
          '?' :: ' ' :: writeText indent k ++ pad indent ++ ':' :: ' ' :: writeNested indent v) ++
      writeMembers indent false ms

end

/-- The text of a document. -/
def text : Json → String
  | .arr (x :: xs) => String.ofList (writeItems 0 true (x :: xs))
  | .obj (m :: ms) => String.ofList (writeMembers 0 true (m :: ms))
  | j => String.ofList (writeScalar 0 j)

end FormPage.Yaml
