import FormPage.Proofs.Text.Decimal
import FormPage.Row.Label
import Mathlib.Data.List.Basic

/-!
Labels are read back. A label shows an integer if it is the field, the integer's text and blanks
around the field; the label that is written for a number is one of these. Reading drops as many
blanks in front of the field as it can, which for a field that begins with blanks may be more than
stand in front of it; but what is dropped, however it is chosen, leaves the whole integer. The
number of a label is thus the integer that it shows, where that fits 64 bits, and zero where it does
not (`number_of_shows`).
-/

namespace FormPage.Row.Label

open Text

variable {field cs rest : List Char} {n : Int}

/-! ### What is read behind the field -/

theorem afterField?_sound (h : afterField? field cs = some rest) :
    ∃ ws : List Char, (∀ c ∈ ws, isBlank c = true) ∧ cs = ws ++ (field ++ rest) := by
  induction cs with
  | nil =>
    rw [afterField?, List.isPrefixOf?_eq_some_iff_append_eq] at h
    exact ⟨[], nofun, h.symm⟩
  | cons c cs ih =>
    rw [afterField?] at h
    split at h
    · rename_i hc
      rcases Option.or_eq_some_iff.mp h with h | ⟨-, h⟩
      · obtain ⟨ws, hws, hcs⟩ := ih h
        refine ⟨c :: ws, ?_, by rw [hcs]; rfl⟩
        intro a ha
        rcases List.mem_cons.mp ha with rfl | ha
        · exact hc
        · exact hws a ha
      · exact ⟨[], nofun, (List.isPrefixOf?_eq_some_iff_append_eq.mp h).symm⟩
    · exact ⟨[], nofun, (List.isPrefixOf?_eq_some_iff_append_eq.mp h).symm⟩

/-- A text that begins with blanks and the field is read behind them. -/
theorem afterField?_isSome {ws : List Char} (hws : ∀ c ∈ ws, isBlank c = true)
    (field rest : List Char) :
    ∃ behind, afterField? field (ws ++ (field ++ rest)) = some behind := by
  induction ws with
  | nil =>
    have hprefix : field.isPrefixOf? (field ++ rest) = some rest :=
      List.isPrefixOf?_eq_some_iff_append_eq.mpr rfl
    rw [List.nil_append]
    cases hcs : field ++ rest with
    | nil => rw [hcs] at hprefix; exact ⟨rest, hprefix⟩
    | cons c cs =>
      rw [hcs] at hprefix
      rw [afterField?]
      split
      · cases hafter : afterField? field cs with
        | none => exact ⟨rest, by rw [Option.none_or, hprefix]⟩
        | some behind => exact ⟨behind, rfl⟩
      · exact ⟨rest, hprefix⟩
  | cons w ws ih =>
    obtain ⟨behind, hbehind⟩ := ih fun c hc => hws c (List.mem_cons_of_mem w hc)
    refine ⟨behind, ?_⟩
    rw [List.cons_append, afterField?, if_pos (hws w List.mem_cons_self), hbehind, Option.some_or]

/-! ### The number of a label -/

/-- A label shows an integer: it is the field and the integer's text, with blanks in front and
between. -/
def Shows (label field : String) (n : Int) : Prop :=
  ∃ ws gap num : List Char, (∀ c ∈ ws, isBlank c = true) ∧ (∀ c ∈ gap, isBlank c = true) ∧
    SignedNumeral num n ∧ label.toList = ws ++ (field.toList ++ (gap ++ num))

theorem countP_blank {ws : List Char} (hws : ∀ c ∈ ws, isBlank c = true) :
    ws.countP (fun c => !isBlank c) = 0 :=
  List.countP_eq_zero.mpr fun c hc => by simp [hws c hc]

/-- However many blanks are dropped in front of the field, the integer stays whole. -/
theorem blanks_of_dropped {ws gap num dropped behind : List Char}
    (hws : ∀ c ∈ ws, isBlank c = true) (hgap : ∀ c ∈ gap, isBlank c = true)
    (hnum : ∀ c ∈ num, isBlank c = false) (hdropped : ∀ c ∈ dropped, isBlank c = true)
    (h : ws ++ (field ++ (gap ++ num)) = dropped ++ (field ++ behind)) :
    ∃ blanks : List Char, (∀ c ∈ blanks, isBlank c = true) ∧ behind = blanks ++ num := by
  -- the integer and what is left hold the same number of characters that are no blanks
  have hcount := congrArg (List.countP fun c => !isBlank c) h
  simp only [List.countP_append, countP_blank hws, countP_blank hgap, countP_blank hdropped]
    at hcount
  have hnumSuffix : num <:+ dropped ++ (field ++ behind) := by
    rw [← h, ← List.append_assoc, ← List.append_assoc]
    exact List.suffix_append _ num
  have hbehindSuffix : behind <:+ dropped ++ (field ++ behind) :=
    (List.suffix_append field behind).trans (List.suffix_append dropped _)
  rcases List.suffix_or_suffix_of_suffix hnumSuffix hbehindSuffix with
    ⟨blanks, hsplit⟩ | ⟨lost, hsplit⟩
  · refine ⟨blanks, fun c hc => ?_, hsplit.symm⟩
    rw [← hsplit, List.countP_append] at hcount
    have hnone : blanks.countP (fun c => !isBlank c) = 0 := by omega
    simpa using List.countP_eq_zero.mp hnone c hc
  · -- what is lost would be a part of the integer, and that holds no blank
    rw [← hsplit, List.countP_append] at hcount
    have hnone : lost.countP (fun c => !isBlank c) = 0 := by omega
    cases lost with
    | nil => exact ⟨[], nofun, hsplit⟩
    | cons c lost =>
      have hc := List.countP_eq_zero.mp hnone c List.mem_cons_self
      have hc' := hnum c (hsplit ▸ List.mem_append_left _ List.mem_cons_self)
      simp [hc'] at hc

/-- The number of a label is the integer that it shows, or zero if that does not fit 64 bits. -/
theorem number_of_shows {label field : String} (h : Shows label field n) :
    number label field = if Fits64 n then n else 0 := by
  obtain ⟨ws, gap, num, hws, hgap, hnum, hlabel⟩ := h
  have hplain := isBlank_of_mem_signedNumeral hnum
  obtain ⟨behind, hbehind⟩ := afterField?_isSome hws field.toList (gap ++ num)
  obtain ⟨dropped, hdropped, hsplit⟩ := afterField?_sound hbehind
  obtain ⟨blanks, hblanks, rfl⟩ := blanks_of_dropped hws hgap hplain hdropped hsplit
  rw [number, hlabel, hbehind, Option.getD_some, numberOf, trim_append hblanks hplain,
    signed?_signedNumeral hnum]

/-- A written label shows the number that it was written for. -/
theorem shows_text (field : String) (n : Int) : Shows (text field n) field n :=
  ⟨[], [' '], decimal n, nofun, List.forall_mem_singleton.mpr (by decide),
    signedNumeral_decimal n, by simp [text, showInt]⟩

/-- The number of a written label is the one that it was written for. -/
theorem number_text (field : String) (h : Fits64 n) : number (text field n) field = n := by
  rw [number_of_shows (shows_text field n), if_pos h]

/-- What a label shows as its number fits 64 bits, whatever the label is. -/
theorem fits64_number (label field : String) : Fits64 (number label field) := by
  rw [number, numberOf]
  split
  · split
    · assumption
    · decide
  · decide

example : number (text "  " (-3)) "  " = -3 := by decide

end FormPage.Row.Label
