import FormPage.Text.Ascii

/-!
Numbers of the format binary64, finite ones only, as a sign and an integer times a power of two.
`ofRatio?` rounds a quotient of natural numbers to the nearest such number, an exact tie to the one
with an even integer; products and quotients are rounded in the same way.
-/

namespace FormPage

/-- The size of a finite number of the format: `mantissa * 2 ^ exponent`. -/
structure Magnitude where
  mantissa : Nat
  exponent : Int
deriving DecidableEq, Repr, Inhabited

namespace Magnitude

/-- The least exponent of the format. -/
def leastExponent : Int := -1074

/-- The greatest exponent of the format. -/
def greatestExponent : Int := 971

/-- The size zero. -/
def zero : Magnitude := ⟨0, leastExponent⟩

/-- The quotient rounded to the nearest natural number, a tie to the even one. -/
def roundDiv (num den : Nat) : Nat :=
  let q := num / den
  let twice := 2 * (num % den)
  if twice < den then q else if den < twice then q + 1 else if q % 2 = 0 then q else q + 1

/-- `num / den` in units of `2 ^ exponent`, rounded. -/
def inUnits (num den : Nat) (exponent : Int) : Nat :=
  if exponent < 0 then roundDiv (num * Nat.pow 2 exponent.natAbs) den
  else roundDiv num (den * Nat.pow 2 exponent.natAbs)

/-- The exponent of the unit in which `num / den` has 53 binary digits. -/
def unitExponent (num den : Nat) : Int :=
  let guess : Int := (Nat.log2 num : Int) - Nat.log2 den - 52
  let tooCoarse :=
    if guess < 0 then num * Nat.pow 2 guess.natAbs < den * Nat.pow 2 52
    else num < den * Nat.pow 2 guess.natAbs * Nat.pow 2 52
  max leastExponent (if tooCoarse then guess - 1 else guess)

/-- The size nearest to `num / den`, or `none` if that is beyond the format. -/
def ofRatio? (num den : Nat) : Option Magnitude :=
  if num = 0 then some zero
  else
    let e := unitExponent num den
    let m := inUnits num den e
    let r : Magnitude := if m = Nat.pow 2 53 then ⟨Nat.pow 2 52, e + 1⟩ else ⟨m, e⟩
    if greatestExponent < r.exponent then none else some r

/-- The numerator of a size as a quotient. -/
def num (a : Magnitude) : Nat :=
  if a.exponent < 0 then a.mantissa else a.mantissa * Nat.pow 2 a.exponent.natAbs

/-- The denominator of a size as a quotient. -/
def den (a : Magnitude) : Nat := if a.exponent < 0 then Nat.pow 2 a.exponent.natAbs else 1

/-- The rounded product. -/
def mul? (a b : Magnitude) : Option Magnitude := ofRatio? (a.num * b.num) (a.den * b.den)

/-- The rounded quotient. -/
def div? (a b : Magnitude) : Option Magnitude := ofRatio? (a.num * b.den) (a.den * b.num)

/-- The size nearest to `significand * 10 ^ exponent`, or `none` if that is beyond the format. -/
def ofDecimal? (significand : Nat) (exponent : Int) : Option Magnitude :=
  if significand = 0 then some zero
  else if exponent < 0 then ofRatio? significand (Nat.pow 10 exponent.natAbs)
  else ofRatio? (significand * Nat.pow 10 exponent.natAbs) 1

end Magnitude

/-- A finite number of the format binary64. -/
structure Binary64 where
  negative : Bool
  magnitude : Magnitude
deriving DecidableEq, Repr, Inhabited

end FormPage
