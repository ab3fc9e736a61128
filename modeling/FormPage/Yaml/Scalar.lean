import FormPage.Json.Basic
import FormPage.Number.Binary64
import FormPage.Text.Integer

/-!
What a plain scalar of YAML means: null, a truth value, an integer of one of four bases, a float, or
the text itself.
-/

namespace FormPage.Yaml

/-- Whether a scalar is a number by its digits but begins with a needless zero, which makes it a
text. -/
def hasNeedlessZero (cs : List Char) : Bool :=
  let cs := match cs with
    | '-' :: rest => rest
    | '+' :: rest => rest
    | rest => rest
  1 < cs.length && cs.head? = some '0' && cs.all Text.isDigit

/-- The number that digits of a base write. -/
def baseNumber? (base : Nat) (cs : List Char) : Option Nat :=
  if cs.isEmpty then none
  else
    cs.foldlM (fun n c => do
      let v ← Text.hexValue? c
      if v < base then some (base * n + v) else none) 0

/-- The size of an integer without its sign, in one of four bases. -/
def natural? : List Char → Option Nat
  | '0' :: 'x' :: ds => baseNumber? 16 ds
  | '0' :: 'o' :: ds => baseNumber? 8 ds
  | '0' :: 'b' :: ds => baseNumber? 2 ds
  | ds => if hasNeedlessZero ds then none else baseNumber? 10 ds

/-- The integer that a scalar writes. -/
def integer? : List Char → Option Int
  | '-' :: cs => (natural? cs).map fun n => -(n : Int)
  | '+' :: cs => (natural? cs).map fun n => (n : Int)
  | cs => (natural? cs).map fun n => (n : Int)

/-- Whether an integer fits in some number of bits, with or without sign. -/
def fitsBits (bits : Nat) (n : Int) : Bool :=
  if n < 0 then n.natAbs ≤ Nat.pow 2 (bits - 1) else n.natAbs < Nat.pow 2 bits

/-- The decimal number without its sign. -/
def decimal? (negative : Bool) (cs : List Char) : Option Json := do
  let isExponent (c : Char) : Bool := c = 'e' || c = 'E'
  let mantissa := cs.takeWhile fun c => !isExponent c
  let whole := mantissa.takeWhile (· ≠ '.')
  let fraction := (mantissa.dropWhile (· ≠ '.')).drop 1
  let ds := whole ++ fraction
  if ds.isEmpty || !ds.all Text.isDigit then none
  else
    let e ←
      match cs.dropWhile fun c => !isExponent c with
      | [] => some 0
      | _ :: e => Text.signed? e
    let bound : Int := 2000 + ds.length
    let e := max (-bound) (min bound e) - fraction.length
    let a ← Magnitude.ofDecimal? (Nat.ofDigitChars 10 ds 0) e
    return .float ⟨negative, a⟩

/-- The float that a scalar writes; what is not finite has no JSON form but `null`. -/
def float? (cs : List Char) : Option Json :=
  let unsigned := match cs with
    | '+' :: rest => rest
    | rest => rest
  if String.ofList unsigned ∈ [".inf", ".Inf", ".INF"] then some .null
  else if String.ofList cs ∈ ["-.inf", "-.Inf", "-.INF", ".nan", ".NaN", ".NAN"] then some .null
  else
    match cs with
    | '-' :: rest => decimal? true rest
    | _ => decimal? false unsigned

/-- What a plain scalar means other than its text: `none` for a text, and `some none` for an integer
that no JSON value holds. An integer of more than 128 bits is a float if it is decimal. -/
def special? (s : String) : Option (Option Json) :=
  let cs := s.toList
  if s ∈ ["", "~", "null", "Null", "NULL"] then some (some .null)
  else if s ∈ ["true", "True", "TRUE"] then some (some (.bool true))
  else if s ∈ ["false", "False", "FALSE"] then some (some (.bool false))
  else
    match (integer? cs).filter (fitsBits 128) with
    | some n => some (if fitsBits 64 n then some (.int n) else none)
    | none => if hasNeedlessZero cs then none else (float? cs).map some

/-- The value of a plain scalar. -/
def resolve? (s : String) : Option Json :=
  match special? s with
  | some j => j
  | none => some (.str s)

end FormPage.Yaml
