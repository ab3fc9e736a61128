import FormPage.Json.Reader
import FormPage.Json.Writer
import FormPage.Proofs.Text.Decimal

/-!
Reading strings and integers back. Every character of a string is recovered from its escaped form,
whatever it is, and the string ends at its closing quote. An integer of 64 bits, with or without
sign, is recovered from its digits wherever no other part of a number follows.
-/

namespace FormPage

variable {c : Char} {cs rest : List Char} {k : Nat} {n : Int}

/-! ### Digits -/

/-- The digits of a number begin with no zero, except those of zero itself. -/
theorem Text.digits_of_pos (hk : 0 < k) : ∃ c cs, digits k = c :: cs ∧ c ≠ '0' := by
  induction k using Nat.strongRecOn with
  | ind k ih =>
    by_cases hsmall : k < 10
    · have hfirst : ∀ j < 10, 0 < j → j.digitChar ≠ '0' := by decide
      exact ⟨k.digitChar, [], Nat.toDigits_of_lt_base hsmall, hfirst k hsmall hk⟩
    · obtain ⟨c, cs, hdigits, hc⟩ := ih (k / 10) (by omega) (by omega)
      refine ⟨c, cs ++ [(k % 10).digitChar], ?_, hc⟩
      rw [digits, Nat.toDigits_of_base_le (by decide) (by omega), ← digits, hdigits]
      rfl

namespace Json

/-! ### Integers -/

/-- What may stand behind an integer: nothing that would be read as part of the number. -/
def Number.Ends (rest : List Char) : Prop :=
  ∀ c ∈ rest.head?, Text.isDigit c = false ∧ c ≠ '.' ∧ c ≠ 'e' ∧ c ≠ 'E'

theorem Number.collect_append {ds : List Char} {s : Nat}
    (hds : ∀ c ∈ ds, Text.isDigit c = true) (hrest : ∀ c ∈ rest.head?, Text.isDigit c = false)
    (hs : Nat.ofDigitChars 10 ds s ≤ greatestSignificand) :
    collect s (ds ++ rest) = (Nat.ofDigitChars 10 ds s, ds.length, rest) := by
  induction ds generalizing s with
  | nil =>
    cases rest with
    | nil => rfl
    | cons c rest => simp [collect, hrest c rfl]
  | cons c ds ih =>
    rw [Nat.ofDigitChars_cons] at hs ⊢
    have hc := hds c List.mem_cons_self
    have hnext : s * 10 + (c.toNat - 48) = 10 * s + (c.toNat - '0'.toNat) := by
      rw [Nat.mul_comm]; rfl
    -- further digits only make the number greater
    have hle : 10 * s + (c.toNat - '0'.toNat) ≤ greatestSignificand := by
      refine Nat.le_trans ?_ hs
      rw [Nat.ofDigitChars_eq_ofDigitChars_zero]
      exact Nat.le_trans (Nat.le_mul_of_pos_left _ (Nat.pow_pos (by decide))) (Nat.le_add_right _ _)
    rw [List.cons_append, collect]
    simp only [hc, hnext, hle, decide_true, Bool.and_self, if_true,
      ih (fun c hc => hds c (List.mem_cons_of_mem _ hc)) hs]
    rfl

theorem Number.readTail_of_ends (hrest : Ends rest) (negative : Bool) (s : Nat) :
    readUnsigned.readTail negative s rest = (ofInteger negative s).map (·, rest) := by
  cases rest with
  | nil => rfl
  | cons c rest =>
    obtain ⟨-, hdot, he, hE⟩ := hrest c rfl
    exact readUnsigned.readTail.eq_4 negative s (c :: rest) (by simp [hdot]) (by simp [he])
      (by simp [hE])

theorem Number.readUnsigned_digits (hrest : Ends rest) (hk : k ≤ greatestSignificand)
    (negative : Bool) :
    readUnsigned negative (Text.digits k ++ rest) = (ofInteger negative k).map (·, rest) := by
  rcases Nat.eq_zero_or_pos k with rfl | hpos
  · have htail := readTail_of_ends hrest negative 0
    cases rest with
    | nil => exact htail
    | cons c rest =>
      have hc := (hrest c rfl).1
      show (if Text.isDigit c then none else readUnsigned.readTail negative 0 (c :: rest)) = _
      rw [hc, if_neg Bool.false_ne_true, htail]
  · obtain ⟨c, cs, hdigits, hc⟩ := Text.digits_of_pos hpos
    have hvalue : Nat.ofDigitChars 10 (Text.digits k) 0 = k := Nat.ofDigitChars_ten_toDigits
    have hcollect : collect 0 (Text.digits k ++ rest) =
        (Nat.ofDigitChars 10 (Text.digits k) 0, (Text.digits k).length, rest) :=
      collect_append (fun c hc => Text.isDigit_of_mem_digits hc) (fun c hc => (hrest c hc).1)
        (by rw [hvalue]; exact hk)
    rw [hvalue] at hcollect
    have hdigit : Text.isDigit c = true :=
      Text.isDigit_of_mem_digits (k := k) (by rw [hdigits]; exact List.mem_cons_self)
    have htail := readTail_of_ends hrest negative k
    rw [hdigits, List.cons_append] at hcollect ⊢
    rw [readUnsigned.eq_3 negative c (cs ++ rest) (by simp [hc]) (by simp [hc])]
    simp only [hdigit, Bool.not_true, hcollect]
    cases rest with
    | nil => exact htail
    | cons d rest => simpa [(hrest d rfl).1] using htail

/-- The integers that stay integers: those of 64 bits with sign or without. -/
def Number.Exact (n : Int) : Prop := -9223372036854775808 ≤ n ∧ n ≤ 18446744073709551615

/-- An integer is read back. -/
theorem Number.read_decimal (hn : Exact n) (hrest : Ends rest) :
    read (Text.decimal n ++ rest) = some (.int n, rest) := by
  obtain ⟨hlow, hhigh⟩ := hn
  cases n with
  | ofNat k =>
    have hk : k ≤ greatestSignificand := Int.ofNat_le.mp hhigh
    have hread := readUnsigned_digits hrest hk false
    -- the first digit is no sign
    have hsign : ∀ r, Text.digits k ++ rest ≠ '-' :: r := by
      intro r heq
      cases hdigits : Text.digits k with
      | nil => exact Text.digits_ne_nil k hdigits
      | cons c cs =>
        rw [hdigits, List.cons_append, List.cons.injEq] at heq
        have hc := Text.isDigit_of_mem_digits (k := k) (by rw [hdigits]; exact List.mem_cons_self)
        rw [heq.1] at hc
        revert hc
        decide
    rw [Text.decimal, read.eq_2 _ hsign, hread]
    rfl
  | negSucc k =>
    have hk : k + 1 ≤ 9223372036854775808 := by omega
    have hread := readUnsigned_digits hrest (k := k + 1)
      (Nat.le_trans hk (by decide)) true
    rw [Text.decimal, List.cons_append, read, hread, ofInteger]
    simp only [hk]
    rfl

/-! ### Strings -/

/-- A control character is read back from its four hexadecimal digits. -/
theorem readString_hex (hk : k < 0x20) (cs : List Char) :
    readString ('\\' :: 'u' :: Text.lowerHex 4 k ++ cs) =
      (readString cs).map fun r => (Char.ofNat k :: r.1, r.2) := by
  have hlength : ∀ j < 0x20, (Text.lowerHex 4 j).length = 4 := by decide
  have hnumber : ∀ j < 0x20, Text.hexNumber? (Text.lowerHex 4 j) = some j ∧
      isLowSurrogate j = false ∧ isHighSurrogate j = false := by decide
  obtain ⟨hhex, hlow, hhigh⟩ := hnumber k hk
  obtain ⟨a, b, c, d, hdigits⟩ : ∃ a b c d, Text.lowerHex 4 k = [a, b, c, d] :=
    match Text.lowerHex 4 k, hlength k hk with
    | [a, b, c, d], _ => ⟨a, b, c, d, rfl⟩
  rw [hdigits] at hhex ⊢
  simp [readString, hhex, hlow, hhigh]

theorem readString_escapeChar (c : Char) (cs : List Char) :
    readString (escapeChar c ++ cs) = (readString cs).map fun r => (c :: r.1, r.2) := by
  by_cases hquote : c = '"'
  · subst hquote; rfl
  by_cases hslash : c = '\\'
  · subst hslash; rfl
  by_cases hback : c = '\x08'
  · subst hback; rfl
  by_cases htab : c = '\t'
  · subst htab; rfl
  by_cases hline : c = '\n'
  · subst hline; rfl
  by_cases hfeed : c = '\x0c'
  · subst hfeed; rfl
  by_cases hreturn : c = '\r'
  · subst hreturn; rfl
  by_cases hcontrol : c.toNat < 0x20
  · simp only [escapeChar, hquote, hslash, hback, htab, hline, hfeed, hreturn, hcontrol, if_true,
      if_false]
    rw [readString_hex hcontrol, Char.ofNat_toNat]
  · simp only [escapeChar, hquote, hslash, hback, htab, hline, hfeed, hreturn, hcontrol, if_false,
      List.singleton_append]
    rw [readString.eq_5 c cs (by simp [hquote]) (by simp [hslash]) (by simp [hslash])]
    simp [hcontrol, hslash]

/-- A string is read back, up to its closing quote. -/
theorem readString_escaped (cs rest : List Char) :
    readString (cs.flatMap escapeChar ++ '"' :: rest) = some (cs, rest) := by
  induction cs with
  | nil => rfl
  | cons c cs ih =>
    rw [List.flatMap_cons, List.append_assoc, readString_escapeChar, ih]
    rfl

end Json

end FormPage
