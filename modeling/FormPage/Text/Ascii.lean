/-!
ASCII letters: `lower` folds the case of the 26 letters and leaves every other character alone, so
names compare by it without touching letters outside ASCII.
-/

namespace FormPage.Text

/-- The lower-case form of an ASCII letter, any other character itself. -/
def lowerChar (c : Char) : Char :=
  if 'A' ≤ c ∧ c ≤ 'Z' then Char.ofNat (c.toNat + 32) else c

/-- Folds the case of the ASCII letters of a text. -/
def lower (s : String) : String := String.ofList (s.toList.map lowerChar)

/-- An ASCII decimal digit. -/
def isDigit (c : Char) : Bool := '0' ≤ c && c ≤ '9'

/-- An ASCII letter or digit. -/
def isAlphanumeric (c : Char) : Bool :=
  isDigit c || ('a' ≤ c && c ≤ 'z') || ('A' ≤ c && c ≤ 'Z')

/-- The value of a hexadecimal digit of either case. -/
def hexValue? (c : Char) : Option Nat :=
  if isDigit c then some (c.toNat - 48)
  else if 'a' ≤ c ∧ c ≤ 'f' then some (c.toNat - 87)
  else if 'A' ≤ c ∧ c ≤ 'F' then some (c.toNat - 55)
  else none

/-- The number that hexadecimal digits write, or `none` if one of them is no such digit. -/
def hexNumber? (cs : List Char) : Option Nat :=
  cs.foldlM (fun n c => (hexValue? c).map (16 * n + ·)) 0

/-- The upper-case hexadecimal digits of a number, with zeros in front up to `width` digits. -/
def upperHex (width n : Nat) : List Char :=
  let digits := (Nat.toDigits 16 n).map fun c => if isDigit c then c else Char.ofNat (c.toNat - 32)
  List.replicate (width - digits.length) '0' ++ digits

/-- The lower-case hexadecimal digits of a number, with zeros in front up to `width` digits. -/
def lowerHex (width n : Nat) : List Char :=
  let digits := Nat.toDigits 16 n
  List.replicate (width - digits.length) '0' ++ digits

end FormPage.Text
