import FormPage.Text.Ascii

/-!
Form bodies: names and values as they are posted. ASCII letters and digits and the characters
`*-._` stand for themselves, a space becomes a plus sign, and every other character is written as
the percent-escaped bytes of its UTF-8 form. `decode` reads a body back: pairs at ampersands, name
and value at the first equals sign.
-/

namespace FormPage.FormBody

/-- The characters that stand for themselves. -/
def isPlain (c : Char) : Bool :=
  Text.isAlphanumeric c || c == '*' || c == '-' || c == '.' || c == '_'

/-- A byte as a percent sign and two upper-case hexadecimal digits. -/
def escapeByte (b : UInt8) : List Char := '%' :: Text.upperHex 2 b.toNat

/-- One character of a name or a value. -/
def encodeChar (c : Char) : List Char :=
  if isPlain c then [c]
  else if c = ' ' then ['+']
  else (String.utf8EncodeChar c).flatMap escapeByte

/-- A name or a value. -/
def encodeText (cs : List Char) : List Char := cs.flatMap encodeChar

/-- A pair of name and value. -/
def encodePair (p : String × String) : List Char :=
  encodeText p.1.toList ++ '=' :: encodeText p.2.toList

/-- The pairs of a form, joined with ampersands. -/
def encode (ps : List (String × String)) : List Char := ['&'].intercalate (ps.map encodePair)

/-- Cuts a text at every `mark`. -/
def cut (mark : Char) : List Char → List (List Char)
  | [] => [[]]
  | c :: rest =>
    if c = mark then [] :: cut mark rest
    else
      match cut mark rest with
      | [] => [[c]]
      | part :: parts => (c :: part) :: parts

/-- The parts before and after the first `mark`; without one the second part is empty. -/
def cutOnce (mark : Char) : List Char → List Char × List Char
  | [] => ([], [])
  | c :: rest =>
    if c = mark then ([], rest) else (c :: (cutOnce mark rest).1, (cutOnce mark rest).2)

/-- The bytes of an escaped text: a plus sign is a space, a percent sign and two hexadecimal digits
are a byte, and any other ASCII character is its own byte. -/
def bytes? : List Char → Option (List UInt8)
  | [] => some []
  | '%' :: a :: b :: rest => do
    let high ← Text.hexValue? a
    let low ← Text.hexValue? b
    return UInt8.ofNat (16 * high + low) :: (← bytes? rest)
  | c :: rest =>
    if c = '+' then (bytes? rest).map (0x20 :: ·)
    else if c ≠ '%' ∧ c.toNat < 0x80 then (bytes? rest).map (UInt8.ofNat c.toNat :: ·)
    else none

/-- The text that an escaped name or value stands for. -/
def decodeText? (cs : List Char) : Option String :=
  (bytes? cs).bind fun bs => String.fromUTF8? ⟨bs.toArray⟩

/-- The pair that an escaped pair stands for. -/
def decodePair? (cs : List Char) : Option (String × String) := do
  let (name, value) := cutOnce '=' cs
  return (← decodeText? name, ← decodeText? value)

/-- The pairs of a body, none for the empty one. -/
def decode? (cs : List Char) : Option (List (String × String)) :=
  if cs.isEmpty then some [] else (cut '&' cs).mapM decodePair?

example : encode [("Route Dir", "1 + 1"), ("é", "")] = "Route+Dir=1+%2B+1&%C3%A9=".toList := by
  decide

end FormPage.FormBody
