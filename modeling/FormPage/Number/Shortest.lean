import FormPage.Number.Binary64
import FormPage.Text.Integer

/-!
The shortest decimal text of a binary64 number: the fewest digits that read back as the number, and
of those the nearest to it, written without an exponent unless it is very large or very small.
-/

namespace FormPage.Magnitude

/-- Whether `digits * 10 ^ exponent` reads back as `a`, that is, lies between the middles towards
the neighbours of `a`; the middles belong to a number with an even mantissa. -/
def readsBack (a : Magnitude) (digits : Nat) (exponent : Int) : Bool :=
  let narrow := a.mantissa = Nat.pow 2 52 && leastExponent < a.exponent
  let scale : Nat := if exponent < 0 then Nat.pow 10 exponent.natAbs else 1
  let value : Nat := 4 * digits * (if exponent < 0 then 1 else Nat.pow 10 exponent.natAbs) * a.den
  let unit : Nat := scale * (if a.exponent < 0 then 1 else Nat.pow 2 a.exponent.natAbs)
  let low := (4 * a.mantissa - if narrow then 1 else 2) * unit
  let high := (4 * a.mantissa + 2) * unit
  if a.mantissa % 2 = 0 then low ≤ value && value ≤ high else low < value && value < high

/-- The place of the decimal point: the least power of ten above `num / den`. -/
def pointFrom (num den : Nat) : Nat → Int → Int
  | 0, k => k
  | limit + 1, k =>
    let above :=
      if k < 0 then num * Nat.pow 10 k.natAbs < den else num < den * Nat.pow 10 k.natAbs
    if above then pointFrom num den limit (k - 1) else k + 1

/-- The digits with the point `point` places after the first, at most `count` of them and the
fewest that read back. -/
def digitsFrom (a : Magnitude) (point : Int) : Nat → Nat → Nat × Int
  | 0, _ => (a.mantissa, a.exponent)
  | limit + 1, count =>
    let e := point - count
    let scaledNum := if e < 0 then a.num * Nat.pow 10 e.natAbs else a.num
    let scaledDen := if e < 0 then a.den else a.den * Nat.pow 10 e.natAbs
    let low := scaledNum / scaledDen
    let nearest := roundDiv scaledNum scaledDen
    if a.readsBack nearest e then (nearest, e)
    else if a.readsBack low e then (low, e)
    else if a.readsBack (low + 1) e then (low + 1, e)
    else digitsFrom a point limit (count + 1)

/-- A decimal without the zeros at the end of its digits. -/
def withoutZeros : Nat → Nat → Int → Nat × Int
  | 0, digits, exponent => (digits, exponent)
  | limit + 1, digits, exponent =>
    if digits % 10 = 0 then withoutZeros limit (digits / 10) (exponent + 1) else (digits, exponent)

/-- The shortest decimal of a size that is not zero: its digits and the exponent of the last. -/
def shortest (a : Magnitude) : Nat × Int :=
  let (digits, exponent) := digitsFrom a (pointFrom a.num a.den 700 309) 17 1
  withoutZeros 17 digits exponent

/-- A decimal without an exponent and with at least one digit after the point. -/
def positional (ds : List Char) (exponent : Int) : List Char :=
  if 0 ≤ exponent then ds ++ List.replicate exponent.natAbs '0' ++ ['.', '0']
  else
    let places := exponent.natAbs
    let padded := List.replicate (places + 1 - ds.length) '0' ++ ds
    padded.take (padded.length - places) ++ '.' :: padded.drop (padded.length - places)

/-- A decimal with one digit in front of the point and an exponent, which has a sign. -/
def scientific (ds : List Char) (exponent : Int) : List Char :=
  let scale := exponent + ds.length - 1
  let scale := 'e' :: (if 0 ≤ scale then '+' :: Text.decimal scale else Text.decimal scale)
  match ds with
  | d :: e :: rest => d :: '.' :: e :: rest ++ scale
  | ds => ds ++ scale

/-- A decimal, without an exponent from 0.00001 up to 16 digits in front of the point. -/
def decimal (digits : Nat) (exponent : Int) : List Char :=
  let ds := Text.digits digits
  let point := exponent + ds.length
  if -5 < point && point ≤ 16 then positional ds exponent else scientific ds exponent

end FormPage.Magnitude

namespace FormPage.Binary64

/-- The shortest text of a number that reads back as it. -/
def text (x : Binary64) : String :=
  let size :=
    if x.magnitude.mantissa = 0 then ['0', '.', '0']
    else Magnitude.decimal x.magnitude.shortest.1 x.magnitude.shortest.2
  String.ofList (if x.negative then '-' :: size else size)

end FormPage.Binary64
