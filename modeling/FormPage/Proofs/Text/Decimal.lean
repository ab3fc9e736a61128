import FormPage.Text.Blank
import FormPage.Text.Integer
import Mathlib.Data.List.Induction
import Mathlib.Tactic.ByContra

/-!
Decimal integers are read back. What `decimal` writes is one run of characters without a blank, and
`signed?` reads from it the integer that was written; hence different integers are written
differently, and blanks in front of a written integer do not hide it. Beside the one text that is
written stand all the texts of an integer (`SignedNumeral`): of any length, with zeros in front and
with either sign.
-/

namespace FormPage.Text

variable {c : Char} {cs ws : List Char} {n m : Int} {k : Nat}

/-! ### Digits -/

theorem isDigit_iff : isDigit c = true ↔ 48 ≤ c.toNat ∧ c.toNat ≤ 57 := by
  simp only [isDigit, Bool.and_eq_true, decide_eq_true_eq, Char.le_def, UInt32.le_iff_toNat_le]
  rfl

theorem isDigit_of_mem_digits (h : c ∈ digits k) : isDigit c = true := by
  have hc := Nat.isDigit_of_mem_toDigits (by omega) (by omega) h
  simp only [Char.isDigit, Bool.and_eq_true, decide_eq_true_eq, UInt32.le_iff_toNat_le] at hc
  exact isDigit_iff.mpr hc

theorem digits_ne_nil (k : Nat) : digits k ≠ [] := Nat.toDigits_ne_nil

theorem unsigned?_digits (k : Nat) : unsigned? (digits k) = some k := by
  have hall : (digits k).all isDigit = true := List.all_eq_true.mpr fun c => isDigit_of_mem_digits
  have hvalue : Nat.ofDigitChars 10 (digits k) 0 = k := Nat.ofDigitChars_ten_toDigits
  simp [unsigned?, digits_ne_nil, hall, hvalue]

/-! ### Numerals of any length -/

/-- One or more digits stand for a number: a further digit counts what was there ten times. -/
inductive Numeral : List Char → Nat → Prop
  | digit {c : Char} (hc : isDigit c = true) : Numeral [c] (c.toNat - 48)
  | snoc {cs : List Char} {k : Nat} {c : Char} (h : Numeral cs k) (hc : isDigit c = true) :
    Numeral (cs ++ [c]) (10 * k + (c.toNat - 48))

/-- A numeral with an optional sign stands for an integer. -/
inductive SignedNumeral : List Char → Int → Prop
  | plain {cs : List Char} {k : Nat} (h : Numeral cs k) : SignedNumeral cs k
  | plus {cs : List Char} {k : Nat} (h : Numeral cs k) : SignedNumeral ('+' :: cs) k
  | minus {cs : List Char} {k : Nat} (h : Numeral cs k) : SignedNumeral ('-' :: cs) (-k)

theorem unsigned?_eq_some : unsigned? cs = some k ↔
    cs ≠ [] ∧ (∀ c ∈ cs, isDigit c = true) ∧ Nat.ofDigitChars 10 cs 0 = k := by
  rw [← List.all_eq_true, unsigned?]
  cases cs with
  | nil => simp
  | cons b bs => cases (b :: bs).all isDigit <;> simp

/-- The texts that are read without a sign are the numerals. -/
theorem unsigned?_eq_some_iff : unsigned? cs = some k ↔ Numeral cs k := by
  have hvalue : ∀ (cs : List Char) (c : Char), Nat.ofDigitChars 10 (cs ++ [c]) 0 =
      10 * Nat.ofDigitChars 10 cs 0 + (c.toNat - 48) := fun cs c => by
    rw [Nat.ofDigitChars, Nat.ofDigitChars, List.foldl_append]
    rfl
  constructor
  · intro h
    obtain ⟨hne, hall, rfl⟩ := unsigned?_eq_some.mp h
    clear h
    induction cs using List.reverseRecOn with
    | nil => exact absurd rfl hne
    | append_singleton cs c ih =>
      have hc : isDigit c = true := hall c (List.mem_append_right _ (List.mem_singleton_self c))
      rw [hvalue]
      cases cs with
      | nil =>
        rw [List.nil_append, Nat.ofDigitChars, List.foldl_nil, Nat.mul_zero, Nat.zero_add]
        exact .digit hc
      | cons b bs => exact .snoc (ih nofun fun a ha => hall a (List.mem_append_left _ ha)) hc
  · intro h
    rw [unsigned?_eq_some]
    induction h with
    | @digit c hc =>
      refine ⟨nofun, fun a ha => List.mem_singleton.mp ha ▸ hc, ?_⟩
      rw [← List.nil_append [c], hvalue]
      exact Nat.zero_add _
    | @snoc cs k c _ hc ih =>
      obtain ⟨-, hall, rfl⟩ := ih
      refine ⟨by simp, fun a ha => ?_, hvalue cs c⟩
      rcases List.mem_append.mp ha with ha | ha
      · exact hall a ha
      · exact List.mem_singleton.mp ha ▸ hc

/-! ### Reading an integer back -/

/-- A numeral is read as its number: its first digit is no sign. -/
theorem signed?_numeral (h : Numeral cs k) : signed? cs = some (k : Int) := by
  have hread := unsigned?_eq_some_iff.mpr h
  obtain ⟨hne, hall, -⟩ := unsigned?_eq_some.mp hread
  cases cs with
  | nil => exact absurd rfl hne
  | cons c cs =>
    have hc : isDigit c = true := hall c List.mem_cons_self
    have hminus : c ≠ '-' := by rintro rfl; revert hc; decide
    have hplus : c ≠ '+' := by rintro rfl; revert hc; decide
    simp [signed?, hminus, hplus, hread]

theorem signed?_signedNumeral (h : SignedNumeral cs n) : signed? cs = some n := by
  cases h with
  | plain h => exact signed?_numeral h
  | plus h =>
    simp only [signed?, unsigned?_eq_some_iff.mpr h]
    rfl
  | minus h =>
    simp only [signed?, unsigned?_eq_some_iff.mpr h]
    rfl

theorem signedNumeral_decimal (n : Int) : SignedNumeral (decimal n) n := by
  cases n with
  | ofNat k => exact .plain (unsigned?_eq_some_iff.mp (unsigned?_digits k))
  | negSucc k => exact .minus (unsigned?_eq_some_iff.mp (unsigned?_digits (k + 1)))

/-- An integer is read back from its text. -/
theorem signed?_decimal (n : Int) : signed? (decimal n) = some n :=
  signed?_signedNumeral (signedNumeral_decimal n)

theorem decimal_injective (h : decimal n = decimal m) : n = m := by
  have hn := signed?_decimal n
  rw [h, signed?_decimal] at hn
  exact (Option.some.inj hn).symm

/-! ### Blanks around an integer -/

theorem isBlank_of_isDigit (h : isDigit c = true) : isBlank c = false := by
  have hc := isDigit_iff.mp h
  simp only [isBlank, Bool.or_eq_false_iff, Bool.and_eq_false_iff, decide_eq_false_iff_not,
    beq_eq_false_iff_ne]
  omega

theorem mem_decimal (h : c ∈ decimal n) : c = '-' ∨ isDigit c = true := by
  cases n with
  | ofNat k => exact .inr (isDigit_of_mem_digits h)
  | negSucc k =>
    rcases List.mem_cons.mp h with rfl | h
    · exact .inl rfl
    · exact .inr (isDigit_of_mem_digits h)

/-- The text of an integer holds no blank. -/
theorem isBlank_of_mem_signedNumeral (h : SignedNumeral cs n) : ∀ c ∈ cs, isBlank c = false := by
  have hdigits : ∀ {cs k}, Numeral cs k → ∀ c ∈ cs, isBlank c = false := fun h c hc =>
    isBlank_of_isDigit ((unsigned?_eq_some.mp (unsigned?_eq_some_iff.mpr h)).2.1 c hc)
  cases h with
  | plain h => exact hdigits h
  | plus h => exact List.forall_mem_cons.mpr ⟨by decide, hdigits h⟩
  | minus h => exact List.forall_mem_cons.mpr ⟨by decide, hdigits h⟩

theorem isBlank_of_mem_decimal (h : c ∈ decimal n) : isBlank c = false :=
  isBlank_of_mem_signedNumeral (signedNumeral_decimal n) c h

theorem dropWhile_of_not_blank (hcs : ∀ c ∈ cs, isBlank c = false) : cs.dropWhile isBlank = cs := by
  cases cs with
  | nil => rfl
  | cons c cs => simp [hcs c List.mem_cons_self]

theorem dropWhile_blank (hws : ∀ c ∈ ws, isBlank c = true) (hcs : ∀ c ∈ cs, isBlank c = false) :
    (ws ++ cs).dropWhile isBlank = cs := by
  induction ws with
  | nil => exact dropWhile_of_not_blank hcs
  | cons w ws ih =>
    rw [List.cons_append, List.dropWhile_cons_of_pos (hws w List.mem_cons_self)]
    exact ih fun c hc => hws c (List.mem_cons_of_mem w hc)

/-- Blanks in front of a text without blanks are dropped, and nothing else. -/
theorem trim_append (hws : ∀ c ∈ ws, isBlank c = true) (hcs : ∀ c ∈ cs, isBlank c = false) :
    trim (ws ++ cs) = cs := by
  have hback : cs.reverse.dropWhile isBlank = cs.reverse :=
    dropWhile_of_not_blank fun c hc => hcs c (List.mem_reverse.mp hc)
  rw [trim, trimStart, dropWhile_blank hws hcs, trimEnd, hback, List.reverse_reverse]

end FormPage.Text
