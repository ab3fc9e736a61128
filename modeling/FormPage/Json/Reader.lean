import FormPage.Json.Number

/-!
Reading JSON text. A text is accepted if it holds one value and blanks around it, and if no array or
object lies deeper than a given number of levels. Each function consumes characters from the front
and returns the rest; `none` is a syntax error.
-/

namespace FormPage.Json

/-- The blanks between the tokens of JSON. -/
def isSpace (c : Char) : Bool := c = ' ' || c = '\t' || c = '\n' || c = '\r'

/-- Drops the blanks in front. -/
def skipSpace (cs : List Char) : List Char := cs.dropWhile isSpace

/-- The first half of a pair that writes a character beyond 16 bits. -/
def isHighSurrogate (n : Nat) : Bool := 0xD800 ≤ n && n < 0xDC00

/-- The second half of such a pair. -/
def isLowSurrogate (n : Nat) : Bool := 0xDC00 ≤ n && n < 0xE000

/-- The character of a pair of halves. -/
def joinSurrogates (high low : Nat) : Char :=
  Char.ofNat (0x10000 + 0x400 * (high - 0xD800) + (low - 0xDC00))

/-- The character that a letter stands for after a backslash. -/
def escaped? (c : Char) : Option Char :=
  if c = '"' || c = '\\' || c = '/' then some c
  else if c = 'b' then some '\x08'
  else if c = 'f' then some '\x0c'
  else if c = 'n' then some '\n'
  else if c = 'r' then some '\r'
  else if c = 't' then some '\t'
  else none

/-- Reads a string after its opening quote. -/
def readString : List Char → Option (List Char × List Char)
  | [] => none
  | '"' :: rest => some ([], rest)
  | '\\' :: 'u' :: a :: b :: c :: d :: rest => do
    let n ← Text.hexNumber? [a, b, c, d]
    if isLowSurrogate n then none
    else if isHighSurrogate n then
      match rest with
      | '\\' :: 'u' :: e :: f :: g :: h :: rest =>
        let m ← Text.hexNumber? [e, f, g, h]
        if isLowSurrogate m then (readString rest).map fun r => (joinSurrogates n m :: r.1, r.2)
        else none
      | _ => none
    else (readString rest).map fun r => (Char.ofNat n :: r.1, r.2)
  | '\\' :: c :: rest => do
    let c ← escaped? c
    (readString rest).map fun r => (c :: r.1, r.2)
  | c :: rest =>
    if c.toNat < 0x20 || c = '\\' then none
    else (readString rest).map fun r => (c :: r.1, r.2)

/-- Reads the items of an array after its opening bracket, at least one. -/
def readItems (item : List Char → Option (Json × List Char)) :
    Nat → List Char → Option (List Json × List Char)
  | 0, _ => none
  | limit + 1, cs => do
    let (x, rest) ← item cs
    match skipSpace rest with
    | ',' :: rest =>
      let (xs, rest) ← readItems item limit rest
      return (x :: xs, rest)
    | ']' :: rest => return ([x], rest)
    | _ => none

/-- Reads the members of an object after its opening brace, at least one. -/
def readMembers (item : List Char → Option (Json × List Char)) :
    Nat → List Char → Option (List (String × Json) × List Char)
  | 0, _ => none
  | limit + 1, cs =>
    match skipSpace cs with
    | '"' :: rest => do
      let (k, rest) ← readString rest
      match skipSpace rest with
      | ':' :: rest =>
        let (v, rest) ← item rest
        match skipSpace rest with
        | ',' :: rest =>
          let (ms, rest) ← readMembers item limit rest
          return ((String.ofList k, v) :: ms, rest)
        | '\x7d' :: rest => return ([(String.ofList k, v)], rest)
        | _ => none
      | _ => none
    | _ => none

/-- Reads a value in which arrays and objects lie at most `levels` deep. -/
def readValue (levels : Nat) (cs : List Char) : Option (Json × List Char) :=
  match skipSpace cs with
  | 'n' :: 'u' :: 'l' :: 'l' :: rest => some (.null, rest)
  | 't' :: 'r' :: 'u' :: 'e' :: rest => some (.bool true, rest)
  | 'f' :: 'a' :: 'l' :: 's' :: 'e' :: rest => some (.bool false, rest)
  | '"' :: rest => (readString rest).map fun r => (.str (String.ofList r.1), r.2)
  | '[' :: rest =>
    match levels with
    | 0 => none
    | levels + 1 =>
      match skipSpace rest with
      | ']' :: rest => some (.arr [], rest)
      | _ =>
        (readItems (readValue levels) (rest.length + 1) rest).map fun r => (.arr r.1, r.2)
  | '\x7b' :: rest =>
    match levels with
    | 0 => none
    | levels + 1 =>
      match skipSpace rest with
      | '\x7d' :: rest => some (.obj [], rest)
      | _ =>
        (readMembers (readValue levels) (rest.length + 1) rest).map fun r => (ofMembers r.1, r.2)
  | rest => Number.read rest

/-- How deep the arrays and objects of a document may lie. -/
def documentLevels : Nat := 127

/-- The value that a text holds. -/
def parse? (levels : Nat) (text : String) : Option Json := do
  let (j, rest) ← readValue levels text.toList
  if (skipSpace rest).isEmpty then some j else none

end FormPage.Json
