import FormPage.Text.Ascii

/-!
Decimal integers: `decimal` writes an integer, `signed?` reads one with an optional sign, and the
ranges of 32 and 64 bits bound what the rest of the library accepts.
-/

namespace FormPage.Text

/-- The decimal digits of a natural number. -/
def digits (n : Nat) : List Char := Nat.toDigits 10 n

/-- An integer in decimal, with a minus sign in front of a negative one. -/
def decimal : Int → List Char
  | .ofNat n => digits n
  | .negSucc n => '-' :: digits (n + 1)

/-- The text of an integer. -/
def showInt (n : Int) : String := String.ofList (decimal n)

/-- The text of a natural number. -/
def showNat (n : Nat) : String := String.ofList (digits n)

/-- The number that one or more decimal digits write. -/
def unsigned? (cs : List Char) : Option Nat :=
  if cs.isEmpty || !cs.all isDigit then none else some (Nat.ofDigitChars 10 cs 0)

/-- The integer that an optional sign and one or more decimal digits write. -/
def signed? : List Char → Option Int
  | '-' :: cs => (unsigned? cs).map fun n => -(n : Int)
  | '+' :: cs => (unsigned? cs).map Int.ofNat
  | cs => (unsigned? cs).map Int.ofNat

/-- Whether an integer fits 32 bits with sign. -/
def Fits32 (n : Int) : Prop := -2147483648 ≤ n ∧ n ≤ 2147483647

/-- Whether an integer fits 64 bits with sign. -/
def Fits64 (n : Int) : Prop := -9223372036854775808 ≤ n ∧ n ≤ 9223372036854775807

instance (n : Int) : Decidable (Fits32 n) := inferInstanceAs (Decidable (_ ∧ _))

instance (n : Int) : Decidable (Fits64 n) := inferInstanceAs (Decidable (_ ∧ _))

/-- The 32-bit word of an integer that fits one. -/
def word32? (n : Int) : Option Int32 := if Fits32 n then some (Int32.ofInt n) else none

/-- The nearest integer that fits 32 bits. -/
def clamp32 (n : Int) : Int32 :=
  if n < -2147483648 then Int32.minValue
  else if 2147483647 < n then Int32.maxValue
  else Int32.ofInt n

/-- Every word of 32 bits comes back from its integer. -/
theorem word32?_toInt (x : Int32) : word32? x.toInt = some x := by
  have h : Fits32 x.toInt := ⟨x.le_toInt, Int.le_of_lt_add_one x.toInt_lt⟩
  simp [word32?, h]

example : signed? ['-', '0', '7'] = some (-7) := by decide

example : signed? ['+'] = none := by decide

end FormPage.Text
