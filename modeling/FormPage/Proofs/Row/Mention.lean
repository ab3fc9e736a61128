import FormPage.Proofs.Row.IndexedName

/-!
Which part of a name is renumbered. A name may mention a field at several places, and a place may
end at several brackets; renumbering takes the first place and there the last bracket, and changes
nothing in front of the one or behind the other. Main statement: `withIndex_mention`.
-/

namespace FormPage.Row.IndexedName

variable {field name pre pre' mid mid' post post' cs : List Char}

/-- A name mentions a field: its text, and behind it on the same line a closing bracket. -/
structure Mention (name field pre mid post : List Char) : Prop where
  parts : name = pre ++ (field ++ (mid ++ ']' :: post))
  same_line : '\n' ∉ mid

/-- The first mention of a field in a name, up to the last bracket of its line. -/
structure FirstMention (name field pre mid post : List Char) : Prop
    extends Mention name field pre mid post where
  first : ∀ pre' mid' post', Mention name field pre' mid' post' → pre.length ≤ pre'.length
  last : ']' ∉ post.takeWhile (· ≠ '\n')

/-- Nothing follows a bracket of the first line where there is none. -/
theorem afterBracket?_eq_none_iff : afterBracket? cs = none ↔ ']' ∉ cs.takeWhile (· ≠ '\n') := by
  induction cs with
  | nil => simp [afterBracket?]
  | cons c cs ih =>
    rw [afterBracket?]
    by_cases hc : c = '\n'
    · simp [hc]
    · rw [if_neg hc, Option.or_eq_none_iff, ih, List.takeWhile_cons_of_pos (by simpa using hc),
        List.mem_cons, not_or, and_comm]
      simp [eq_comm]

/-- No mention comes in front of the one at which a name is split. -/
theorem length_le_of_split (hs : split? field name = some (pre, post))
    (h : Mention name field pre' mid' post') : pre.length ≤ pre'.length := by
  induction name generalizing pre pre' with
  | nil => cases hs
  | cons c name ih =>
    rw [split?] at hs
    split at hs
    · cases hs
      exact Nat.zero_le _
    · rename_i hnone
      obtain ⟨⟨rest, post⟩, hrest, hpre⟩ := Option.map_eq_some_iff.mp hs
      cases hpre
      cases pre' with
      | nil =>
        -- a mention at the front would have split the name there
        have hfield : field.isPrefixOf? (c :: name) = some (mid' ++ ']' :: post') :=
          List.isPrefixOf?_eq_some_iff_append_eq.mpr h.parts.symm
        rw [hfield, Option.bind_some] at hnone
        exact absurd hnone (afterBracket?_ne_none h.same_line)
      | cons b pre' =>
        exact Nat.succ_le_succ (ih hrest ⟨(List.cons.inj h.parts).2, h.same_line⟩)

/-- A name is split around the first mention of a field. -/
theorem firstMention_of_split (hs : split? field name = some (pre, post)) :
    ∃ mid, FirstMention name field pre mid post := by
  obtain ⟨mid, hmid, hname, hpost⟩ := split?_sound hs
  exact ⟨mid, ⟨hname, hmid⟩, fun _ _ _ h => length_le_of_split hs h,
    afterBracket?_eq_none_iff.mp hpost⟩

theorem not_mention_of_split (hs : split? field name = none) :
    ¬ Mention name field pre mid post := by
  rintro ⟨rfl, hmid⟩
  obtain ⟨s, hsome⟩ :
      ∃ s, split? field (pre ++ (field ++ (mid ++ ']' :: post))) = some s := split?_isSome hmid
  rw [hs] at hsome
  cases hsome

/-- A name that does not mention a field stays as it is. In any other name the number takes the
place of what stands between the field and the bracket of the first mention, and the last number
counts. -/
theorem withIndex_mention (name field : String) (i j : Int) :
    ((∀ pre mid post, ¬ Mention name.toList field.toList pre mid post) ∧
        withIndex name field i = name ∨
      ∃ pre mid post, FirstMention name.toList field.toList pre mid post ∧
        withIndex name field i =
          String.ofList pre ++ field ++ "[" ++ Text.showInt i ++ "]" ++ String.ofList post) ∧
    withIndex (withIndex name field i) field j = withIndex name field j := by
  refine ⟨?_, withIndex_withIndex name field i j⟩
  cases hs : split? field.toList name.toList with
  | none =>
    exact .inl ⟨fun _ _ _ => not_mention_of_split hs, by simp [withIndex, withIndexChars, hs]⟩
  | some s =>
    obtain ⟨pre, post⟩ := s
    obtain ⟨mid, hmid⟩ := firstMention_of_split hs
    refine .inr ⟨pre, mid, post, hmid, ?_⟩
    rw [withIndex, withIndexChars_of_split hs]
    simp [← String.toList_inj, Text.showInt]

example : withIndex "Field Field[1][2]\n]" "Field" 3 = "Field[3]\n]" := by decide

end FormPage.Row.IndexedName
