import FormPage.Json.Basic
import FormPage.Number.Binary64
import FormPage.Text.Integer

/-!
The scalars of TOML: keys, strings in four kinds of quotes, integers in four bases, floats, and the
two truth values. Each function consumes characters from the front and returns the rest; `none` is a
syntax error.
-/

namespace FormPage.Toml

/-- A blank within a line. -/
def isBlank (c : Char) : Bool := c = ' ' || c = '\t'

/-- Drops the blanks in front, up to the end of the line. -/
def skipBlanks (cs : List Char) : List Char := cs.dropWhile isBlank

/-- The rest after a line end, if one is in front. -/
def lineEnd? : List Char → Option (List Char)
  | '\n' :: rest => some rest
  | '\r' :: '\n' :: rest => some rest
  | _ => none

/-- Whether a character may not stand for itself; a tab may. -/
def isControl (c : Char) : Bool := (c.toNat < 0x20 && c ≠ '\t') || c.toNat = 0x7F

/-- A character of a key without quotes. -/
def isBare (c : Char) : Bool := Text.isAlphanumeric c || c = '-' || c = '_'

/-- Reads a string in single quotes. -/
def readLiteral : List Char → Option (List Char × List Char)
  | [] => none
  | '\'' :: rest => some ([], rest)
  | c :: rest => if isControl c then none else (readLiteral rest).map fun r => (c :: r.1, r.2)

/-- The character with a number, if that is a character. -/
def charOf? (n : Nat) : Option Char := if h : n.isValidChar then some (Char.ofNatAux n h) else none

/-- Reads an escape after its backslash. -/
def readEscape : List Char → Option (Char × List Char)
  | 'b' :: rest => some ('\x08', rest)
  | 't' :: rest => some ('\t', rest)
  | 'n' :: rest => some ('\n', rest)
  | 'f' :: rest => some ('\x0c', rest)
  | 'r' :: rest => some ('\r', rest)
  | '"' :: rest => some ('"', rest)
  | '\\' :: rest => some ('\\', rest)
  | 'u' :: rest => number 4 rest
  | 'U' :: rest => number 8 rest
  | _ => none
where
  /-- Reads the number of a character in a given count of digits. -/
  number (count : Nat) (cs : List Char) : Option (Char × List Char) := do
    if cs.length < count then none
    else
      let c ← (Text.hexNumber? (cs.take count)).bind charOf?
      return (c, cs.drop count)

/-- Reads a string in double quotes. -/
def readBasic : Nat → List Char → Option (List Char × List Char)
  | 0, _ => none
  | _ + 1, [] => none
  | _ + 1, '"' :: rest => some ([], rest)
  | limit + 1, '\\' :: rest => do
    let (c, rest) ← readEscape rest
    let (s, rest) ← readBasic limit rest
    return (c :: s, rest)
  | limit + 1, c :: rest =>
    if isControl c then none else (readBasic limit rest).map fun r => (c :: r.1, r.2)

/-- The end of a string in three quotes: up to two further quotes in front of them are content. -/
def closing? (quote : Char) (cs : List Char) : Option (List Char × List Char) :=
  let run := cs.takeWhile (· = quote)
  if run.length < 3 then none
  else some (List.replicate (min 2 (run.length - 3)) quote, cs.drop (min 5 run.length))

/-- Reads a string in three single quotes. -/
def readLongLiteral : Nat → List Char → Option (List Char × List Char)
  | 0, _ => none
  | _ + 1, [] => none
  | limit + 1, c :: rest =>
    match closing? '\'' (c :: rest) with
    | some r => some r
    | none =>
      match lineEnd? (c :: rest) with
      | some rest => (readLongLiteral limit rest).map fun r => ('\n' :: r.1, r.2)
      | none =>
        if isControl c then none else (readLongLiteral limit rest).map fun r => (c :: r.1, r.2)

/-- Drops the blanks and line ends in front. -/
def skipBlankLines : List Char → List Char
  | [] => []
  | '\r' :: '\n' :: rest => skipBlankLines rest
  | c :: rest => if isBlank c || c = '\n' then skipBlankLines rest else c :: rest

/-- The rest after a backslash that ends its line: all blanks and line ends are left out. -/
def continuation? (cs : List Char) : Option (List Char) :=
  (lineEnd? (skipBlanks cs)).map skipBlankLines

/-- Reads a string in three double quotes. -/
def readLongBasic : Nat → List Char → Option (List Char × List Char)
  | 0, _ => none
  | _ + 1, [] => none
  | limit + 1, c :: rest =>
    match closing? '"' (c :: rest) with
    | some r => some r
    | none =>
      match lineEnd? (c :: rest) with
      | some rest => (readLongBasic limit rest).map fun r => ('\n' :: r.1, r.2)
      | none =>
        if c = '\\' then
          match continuation? rest with
          | some rest => readLongBasic limit rest
          | none => do
            let (c, rest) ← readEscape rest
            let (s, rest) ← readLongBasic limit rest
            return (c :: s, rest)
        else if isControl c then none
        else (readLongBasic limit rest).map fun r => (c :: r.1, r.2)

/-- Drops the line end that may follow three opening quotes. -/
def skipFirstLineEnd (cs : List Char) : List Char := (lineEnd? cs).getD cs

/-- Reads a string of any kind. -/
def readString : List Char → Option (List Char × List Char)
  | '"' :: '"' :: '"' :: rest => readLongBasic (rest.length + 1) (skipFirstLineEnd rest)
  | '"' :: rest => readBasic (rest.length + 1) rest
  | '\'' :: '\'' :: '\'' :: rest => readLongLiteral (rest.length + 1) (skipFirstLineEnd rest)
  | '\'' :: rest => readLiteral rest
  | _ => none

/-- Reads one part of a key. -/
def readKeyPart : List Char → Option (String × List Char)
  | '"' :: rest => (readBasic (rest.length + 1) rest).map fun r => (String.ofList r.1, r.2)
  | '\'' :: rest => (readLiteral rest).map fun r => (String.ofList r.1, r.2)
  | cs =>
    let name := cs.takeWhile isBare
    if name.isEmpty then none else some (String.ofList name, cs.dropWhile isBare)

/-- How many parts a key may have, and how deep arrays and inline tables may lie. -/
def deepest : Nat := 79

/-- Reads at most `limit` parts of a key with dots between them. -/
def readParts : Nat → List Char → Option (List String × List Char)
  | 0, _ => none
  | limit + 1, cs => do
    let (part, rest) ← readKeyPart (skipBlanks cs)
    match skipBlanks rest with
    | '.' :: rest =>
      let (parts, rest) ← readParts limit rest
      return (part :: parts, rest)
    | rest => return ([part], rest)

/-- Reads a key. -/
def readKey (cs : List Char) : Option (List String × List Char) := readParts deepest cs

/-- The digits of a number without the underscores between them, none where an underscore is not
between two digits. -/
def ungroup (isDigit : Char → Bool) : List Char → Option (List Char)
  | [] => none
  | [c] => if isDigit c then some [c] else none
  | c :: '_' :: rest => if isDigit c then (ungroup isDigit rest).map (c :: ·) else none
  | c :: rest => if isDigit c then (ungroup isDigit rest).map (c :: ·) else none

/-- The number that digits of a base write. -/
def baseNumber? (base : Nat) (cs : List Char) : Option Nat :=
  cs.foldlM (fun n c => do
    let v ← Text.hexValue? c
    if v < base then some (base * n + v) else none) 0

/-- The integer of 64 bits that digits of a base write. -/
def baseInteger? (base : Nat) (cs : List Char) : Option Json := do
  let ds ← ungroup (fun c => (Text.hexValue? c).isSome) cs
  let n ← baseNumber? base ds
  if Text.Fits64 n then some (.int n) else none

/-- The decimal digits in front of a number's point or exponent, without needless zeros. -/
def wholeDigits? (cs : List Char) : Option (List Char) := do
  let ds ← ungroup Text.isDigit cs
  if ds.head? = some '0' && 1 < ds.length then none else some ds

/-- The exponent of a float. -/
def exponent? : List Char → Option Int
  | '-' :: cs => (ungroup Text.isDigit cs).map fun ds => -(Nat.ofDigitChars 10 ds 0 : Int)
  | '+' :: cs => (ungroup Text.isDigit cs).map fun ds => (Nat.ofDigitChars 10 ds 0 : Int)
  | cs => (ungroup Text.isDigit cs).map fun ds => (Nat.ofDigitChars 10 ds 0 : Int)

/-- The number of a sign and a decimal number. A float beyond the format is an error if it is too
large, and `null`, like an infinity, if it is too far below zero. -/
def number? (negative : Bool) (cs : List Char) : Option Json := do
  let isExponent (c : Char) : Bool := c = 'e' || c = 'E'
  let mantissa := cs.takeWhile fun c => !isExponent c
  let whole ← wholeDigits? (mantissa.takeWhile (· ≠ '.'))
  let fraction ←
    match mantissa.dropWhile (· ≠ '.') with
    | [] => some []
    | _ :: ds => ungroup Text.isDigit ds
  let e ←
    match cs.dropWhile fun c => !isExponent c with
    | [] => some 0
    | _ :: ds => exponent? ds
  if mantissa.contains '.' || cs.any isExponent then
    let ds := whole ++ fraction
    let bound : Int := 2000 + ds.length
    let e := max (-bound) (min bound e) - fraction.length
    match Magnitude.ofDecimal? (Nat.ofDigitChars 10 ds 0) e with
    | some a => return .float ⟨negative, a⟩
    | none => if negative then some .null else none
  else
    let n : Int := Nat.ofDigitChars 10 whole 0
    let n := if negative then -n else n
    if Text.Fits64 n then return .int n else none

/-- The value of a word without quotes: a truth value or a number. What is no finite number has no
JSON form but `null`. -/
def word? (cs : List Char) : Option Json :=
  if cs = "true".toList then some (.bool true)
  else if cs = "false".toList then some (.bool false)
  else if String.ofList cs ∈ ["inf", "+inf", "-inf", "nan", "+nan", "-nan"] then some .null
  else
    match cs with
    | '0' :: 'x' :: ds => baseInteger? 16 ds
    | '0' :: 'o' :: ds => baseInteger? 8 ds
    | '0' :: 'b' :: ds => baseInteger? 2 ds
    | '-' :: ds => number? true ds
    | '+' :: ds => number? false ds
    | ds => number? false ds

/-- Reads a word without quotes. -/
def readWord (cs : List Char) : Option (Json × List Char) :=
  let isWord (c : Char) : Bool := isBare c || c = '+' || c = '.'
  (word? (cs.takeWhile isWord)).map (·, cs.dropWhile isWord)

end FormPage.Toml
