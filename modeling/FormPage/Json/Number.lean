import FormPage.Json.Basic
import FormPage.Text.Integer

/-!
JSON numbers. An integer stays one if it fits 64 bits, with or without sign; every other number,
also minus zero, is of the format binary64. Its digits are taken as an integer of at most 64 bits,
further digits only count as powers of ten, and the powers are then multiplied or divided in with
a rounding for every step; a number beyond the format is an error.
-/

namespace FormPage.Json.Number

/-- The greatest integer that digits are collected into. -/
def greatestSignificand : Nat := 18446744073709551615

/-- The greatest power of ten that one step multiplies or divides by. -/
def greatestPower : Nat := 308

/-- The size of a power of ten. -/
def power (k : Nat) : Magnitude := (Magnitude.ofDecimal? 1 k).getD .zero

/-- Multiplies or divides a size by a power of ten, in steps of at most 308 places. -/
def scale : Nat → Magnitude → Int → Option Magnitude
  | 0, _, _ => none
  | limit + 1, a, e =>
    if e.natAbs ≤ greatestPower then
      if 0 ≤ e then a.mul? (power e.natAbs) else a.div? (power e.natAbs)
    else if a.mantissa = 0 then some a
    else if 0 ≤ e then none
    else (a.div? (power greatestPower)).bind fun b => scale limit b (e + greatestPower)

/-- The number of a sign, a significand and a power of ten. A size below all of the format is zero,
which four steps of division reach. -/
def ofParts (negative : Bool) (significand : Nat) (exponent : Int) : Option Json := do
  let a ← Magnitude.ofRatio? significand 1
  return .float ⟨negative, ← scale 8 a exponent⟩

/-- Collects digits while they fit: the significand, how many digits it took, and the rest. -/
def collect (significand : Nat) : List Char → Nat × Nat × List Char
  | [] => (significand, 0, [])
  | c :: rest =>
    let next := significand * 10 + (c.toNat - 48)
    if Text.isDigit c && next ≤ greatestSignificand then
      let (s, taken, rest) := collect next rest
      (s, taken + 1, rest)
    else (significand, 0, c :: rest)

/-- The greatest exponent that is read. -/
def greatestExponent : Nat := 2147483647

/-- A sum of exponents within 32 bits. -/
def addExponents (a b : Int) : Int := max (-2147483648) (min 2147483647 (a + b))

/-- Reads what follows the letter of an exponent. -/
def readExponent (negative : Bool) (significand : Nat) (exponent : Int) (cs : List Char) :
    Option (Json × List Char) :=
  let (down, cs) : Bool × List Char :=
    match cs with
    | '-' :: rest => (true, rest)
    | '+' :: rest => (false, rest)
    | rest => (false, rest)
  let ds := cs.takeWhile Text.isDigit
  let rest := cs.dropWhile Text.isDigit
  if ds.isEmpty then none
  else
    let e := Nat.ofDigitChars 10 ds 0
    if greatestExponent < e then
      if significand ≠ 0 && !down then none
      else some (.float ⟨negative, .zero⟩, rest)
    else
      let e : Int := if down then addExponents exponent (-(e : Int)) else addExponents exponent e
      (ofParts negative significand e).map (·, rest)

/-- Reads an exponent, if one follows. -/
def finish (negative : Bool) (significand : Nat) (exponent : Int) :
    List Char → Option (Json × List Char)
  | 'e' :: rest | 'E' :: rest => readExponent negative significand exponent rest
  | rest => (ofParts negative significand exponent).map (·, rest)

/-- Reads what follows the decimal point. -/
def readFraction (negative : Bool) (significand : Nat) (exponent : Int) (cs : List Char) :
    Option (Json × List Char) :=
  match cs with
  | c :: _ =>
    if !Text.isDigit c then none
    else
      let (s, taken, rest) := collect significand cs
      finish negative s (exponent - taken) (rest.dropWhile Text.isDigit)
  | [] => none

/-- Reads a number whose integer part did not fit: its further digits are powers of ten. -/
def readLong (negative : Bool) (significand : Nat) (cs : List Char) : Option (Json × List Char) :=
  let dropped := (cs.takeWhile Text.isDigit).length
  match cs.dropWhile Text.isDigit with
  | '.' :: rest => readFraction negative significand dropped rest
  | rest => finish negative significand dropped rest

/-- The value of an integer that fits. Below the range of 64 bits with sign, and for minus zero, it
is a float. -/
def ofInteger (negative : Bool) (significand : Nat) : Option Json :=
  if !negative then some (.int significand)
  else if significand ≠ 0 && significand ≤ 9223372036854775808 then some (.int (-significand))
  else (Magnitude.ofRatio? significand 1).map fun a => .float ⟨true, a⟩

/-- Reads a number without its sign. -/
def readUnsigned (negative : Bool) (cs : List Char) : Option (Json × List Char) :=
  match cs with
  | '0' :: c :: rest =>
    if Text.isDigit c then none else readTail negative 0 (c :: rest)
  | '0' :: [] => readTail negative 0 []
  | c :: _ =>
    if !Text.isDigit c then none
    else
      let (s, _, rest) := collect 0 cs
      match rest with
      | d :: _ => if Text.isDigit d then readLong negative s rest else readTail negative s rest
      | [] => readTail negative s []
  | [] => none
where
  /-- Reads what follows the integer part. -/
  readTail (negative : Bool) (significand : Nat) : List Char → Option (Json × List Char)
    | '.' :: rest => readFraction negative significand 0 rest
    | 'e' :: rest => readExponent negative significand 0 rest
    | 'E' :: rest => readExponent negative significand 0 rest
    | rest => (ofInteger negative significand).map (·, rest)

/-- Reads a number. -/
def read : List Char → Option (Json × List Char)
  | '-' :: rest => readUnsigned true rest
  | cs => readUnsigned false cs

end FormPage.Json.Number
