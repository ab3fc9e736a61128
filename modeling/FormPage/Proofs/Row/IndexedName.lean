import FormPage.Proofs.Text.Decimal
import FormPage.Row.IndexedName
import Mathlib.Data.List.Basic

/-!
Indexed names can be renumbered again and again. The first mention of a field is the first place
where its text is followed by a closing bracket on the same line, and it ends at the last bracket of
that line; what is written in its place is again the first mention and ends at the same place. Hence
renumbering a renumbered name is renumbering the name, and different numbers give different names.
-/

namespace FormPage.Row.IndexedName

open Text

variable {field name pre post mid a b cs : List Char} {i j : Int}

/-! ### Behind the last bracket of a line -/

theorem afterBracket?_sound (h : afterBracket? cs = some post) :
    ∃ mid : List Char, '\n' ∉ mid ∧ cs = mid ++ ']' :: post ∧ afterBracket? post = none := by
  induction cs with
  | nil => cases h
  | cons c cs ih =>
    rw [afterBracket?] at h
    split at h
    · cases h
    · rename_i hc
      rcases Option.or_eq_some_iff.mp h with h | ⟨hnone, h⟩
      · obtain ⟨mid, hmid, rfl, hpost⟩ := ih h
        refine ⟨c :: mid, ?_, rfl, hpost⟩
        rw [List.mem_cons, not_or]
        exact ⟨Ne.symm hc, hmid⟩
      · split at h
        · rename_i hbracket
          cases h
          exact ⟨[], List.not_mem_nil, by rw [hbracket]; rfl, hnone⟩
        · cases h

theorem afterBracket?_append (hmid : '\n' ∉ mid) (hpost : afterBracket? post = none) :
    afterBracket? (mid ++ ']' :: post) = some post := by
  induction mid with
  | nil => simp [afterBracket?, hpost]
  | cons c mid ih =>
    obtain ⟨hc, hmid⟩ := not_or.mp (mt List.mem_cons.mpr hmid)
    rw [List.cons_append, afterBracket?, if_neg (Ne.symm hc), ih hmid, Option.some_or]

theorem afterBracket?_ne_none (hmid : '\n' ∉ mid) : afterBracket? (mid ++ ']' :: post) ≠ none := by
  induction mid with
  | nil => simp [afterBracket?]
  | cons c mid ih =>
    obtain ⟨hc, hmid⟩ := not_or.mp (mt List.mem_cons.mpr hmid)
    rw [List.cons_append, afterBracket?, if_neg (Ne.symm hc)]
    simp [ih hmid]

/-- What comes after the first line has no say. -/
theorem afterBracket?_of_line (hline : '\n' ∈ cs) (h : afterBracket? (cs ++ a) = none) :
    afterBracket? (cs ++ b) = none := by
  induction cs with
  | nil => cases hline
  | cons c cs ih =>
    rw [List.cons_append, afterBracket?] at h ⊢
    by_cases hc : c = '\n'
    · rw [if_pos hc]
    · rw [if_neg hc, Option.or_eq_none_iff] at h ⊢
      have hrest : '\n' ∈ cs := (List.mem_cons.mp hline).resolve_left (Ne.symm hc)
      have hbracket : c ≠ ']' := by
        rintro rfl
        simp at h
      exact ⟨ih hrest h.1, if_neg hbracket⟩

/-! ### The first mention of a field -/

theorem split?_sound (h : split? field name = some (pre, post)) :
    ∃ mid : List Char, '\n' ∉ mid ∧ name = pre ++ (field ++ (mid ++ ']' :: post)) ∧
      afterBracket? post = none := by
  induction name generalizing pre with
  | nil => cases h
  | cons c name ih =>
    rw [split?] at h
    split at h
    · rename_i hfirst
      cases h
      obtain ⟨behind, hbehind, hafter⟩ := Option.bind_eq_some_iff.mp hfirst
      obtain ⟨mid, hmid, rfl, hpost⟩ := afterBracket?_sound hafter
      exact ⟨mid, hmid, (List.isPrefixOf?_eq_some_iff_append_eq.mp hbehind).symm, hpost⟩
    · obtain ⟨s, hs, hpre⟩ := Option.map_eq_some_iff.mp h
      cases hpre
      obtain ⟨mid, hmid, rfl, hpost⟩ := ih hs
      exact ⟨mid, hmid, rfl, hpost⟩

/-- A name in which a bracket follows the field on one line mentions it. -/
theorem split?_isSome (hmid : '\n' ∉ mid) :
    ∃ s, split? field (pre ++ (field ++ (mid ++ ']' :: post))) = some s := by
  induction pre with
  | nil =>
    have hprefix : field.isPrefixOf? (field ++ (mid ++ ']' :: post)) = some (mid ++ ']' :: post) :=
      List.isPrefixOf?_eq_some_iff_append_eq.mpr rfl
    obtain ⟨behind, hbehind⟩ := Option.ne_none_iff_exists'.mp (afterBracket?_ne_none hmid)
    rw [List.nil_append]
    cases hcs : field ++ (mid ++ ']' :: post) with
    | nil => simp at hcs
    | cons c cs =>
      rw [hcs] at hprefix
      exact ⟨_, by rw [split?, hprefix, Option.bind_some, hbehind]⟩
  | cons c pre ih =>
    obtain ⟨s, hs⟩ := ih
    rw [List.cons_append, split?]
    split
    · exact ⟨_, rfl⟩
    · exact ⟨_, by rw [hs]; rfl⟩

/-- No earlier mention comes about where a mention is replaced by another text. -/
theorem no_mention_before {c : Char} (hmid : '\n' ∉ mid)
    (h : (field.isPrefixOf? (c :: (pre ++ (field ++ (mid ++ ']' :: post))))).bind afterBracket? =
      none) :
    (field.isPrefixOf? (c :: (pre ++ (field ++ (cs ++ ']' :: post))))).bind afterBracket? =
      none := by
  rw [Option.bind_eq_none_iff]
  intro behind hbehind
  -- the field fits into what stands in front of the bracket in both names
  have hbehind := List.isPrefixOf?_eq_some_iff_append_eq.mp hbehind
  have hfits : field <+: c :: (pre ++ field) := by
    refine List.prefix_of_prefix_length_le ⟨behind, hbehind⟩ ⟨cs ++ ']' :: post, by simp⟩ ?_
    simp only [List.length_cons, List.length_append]
    omega
  obtain ⟨left, hleft⟩ := hfits
  have hsplit : ∀ rest : List Char, c :: (pre ++ (field ++ rest)) = field ++ (left ++ rest) :=
    fun rest => by rw [← List.append_assoc field, hleft]; simp
  have hold : field.isPrefixOf? (c :: (pre ++ (field ++ (mid ++ ']' :: post)))) =
      some (left ++ (mid ++ ']' :: post)) := by
    rw [hsplit]
    exact List.isPrefixOf?_eq_some_iff_append_eq.mpr rfl
  rw [hold, Option.bind_some] at h
  rw [hsplit, List.append_cancel_left_eq] at hbehind
  rw [hbehind]
  by_cases hline : '\n' ∈ left
  · exact afterBracket?_of_line hline h
  · have hfree : '\n' ∉ left ++ mid := by simp [hline, hmid]
    rw [← List.append_assoc] at h
    exact absurd h (afterBracket?_ne_none hfree)

/-- Where the first mention is replaced by another text of one line, that one is the first. -/
theorem split?_replace (hnew : '\n' ∉ cs) (h : split? field name = some (pre, post)) :
    split? field (pre ++ (field ++ (cs ++ ']' :: post))) = some (pre, post) := by
  induction name generalizing pre with
  | nil => cases h
  | cons c name ih =>
    rw [split?] at h
    split at h
    · rename_i hfirst
      cases h
      obtain ⟨behind, -, hafter⟩ := Option.bind_eq_some_iff.mp hfirst
      obtain ⟨-, -, -, hpost⟩ := afterBracket?_sound hafter
      have hprefix : field.isPrefixOf? (field ++ (cs ++ ']' :: post)) = some (cs ++ ']' :: post) :=
        List.isPrefixOf?_eq_some_iff_append_eq.mpr rfl
      rw [List.nil_append]
      cases hnonempty : field ++ (cs ++ ']' :: post) with
      | nil => simp at hnonempty
      | cons c' cs' =>
        rw [hnonempty] at hprefix
        rw [split?, hprefix, Option.bind_some, afterBracket?_append hnew hpost]
    · rename_i hnone
      obtain ⟨⟨pre', post'⟩, hs, hpre⟩ := Option.map_eq_some_iff.mp h
      cases hpre
      obtain ⟨mid, hmid, rfl, -⟩ := split?_sound hs
      rw [List.cons_append, split?, no_mention_before hmid hnone, ih hs]
      rfl

/-! ### Renumbering -/

theorem newline_not_mem_index (i : Int) : '\n' ∉ '[' :: decimal i := by
  rw [List.mem_cons, not_or]
  refine ⟨by decide, fun h => ?_⟩
  have hblank := isBlank_of_mem_decimal h
  revert hblank
  decide

theorem withIndexChars_of_split (h : split? field name = some (pre, post)) (i : Int) :
    withIndexChars name field i = pre ++ (field ++ (('[' :: decimal i) ++ ']' :: post)) := by
  simp [withIndexChars, h]

theorem split?_withIndexChars (h : split? field name = some (pre, post)) (i : Int) :
    split? field (withIndexChars name field i) = some (pre, post) := by
  rw [withIndexChars_of_split h]
  exact split?_replace (newline_not_mem_index i) h

/-- The last number counts. -/
theorem withIndexChars_withIndexChars (name field : List Char) (i j : Int) :
    withIndexChars (withIndexChars name field i) field j = withIndexChars name field j := by
  cases h : split? field name with
  | none => simp [withIndexChars, h]
  | some s =>
    rw [withIndexChars_of_split (split?_withIndexChars h i), withIndexChars_of_split h]

theorem withIndex_withIndex (name field : String) (i j : Int) :
    withIndex (withIndex name field i) field j = withIndex name field j := by
  simp [withIndex, withIndexChars_withIndexChars]

/-- Different numbers give different names, if the name mentions the field. -/
theorem withIndexChars_injective (h : split? field name = some (pre, post))
    (hij : withIndexChars name field i = withIndexChars name field j) : i = j := by
  rw [withIndexChars_of_split h, withIndexChars_of_split h, List.append_cancel_left_eq,
    List.append_cancel_left_eq, List.append_cancel_right_eq, List.cons.injEq] at hij
  exact decimal_injective hij.2

/-- A name in which a bracket follows the field on one line is numbered in different ways by
different numbers. -/
theorem withIndex_injective {name field : String} (hmid : '\n' ∉ mid)
    (hname : name.toList = pre ++ (field.toList ++ (mid ++ ']' :: post)))
    (hij : withIndex name field i = withIndex name field j) : i = j := by
  obtain ⟨s, hs⟩ : ∃ s, split? field.toList name.toList = some s := by
    rw [hname]
    exact split?_isSome hmid
  rw [withIndex, withIndex, String.ofList_inj] at hij
  exact withIndexChars_injective hs hij

end FormPage.Row.IndexedName
