import FormPage.Proofs.Json.Levels
import FormPage.Proofs.Json.Members
import FormPage.Proofs.Json.Scalars

/-!
Layouts of a text. Both ways of writing a value differ only in the blanks between its tokens, so
that both are the same function of a layout.
-/

namespace FormPage.Json

/-! ### Layouts -/

/-- The blanks of a text: what stands where a line may begin at a level, and what stands behind the
colon of a member. -/
structure Layout where
  line : Nat → List Char
  gap : List Char
  line_blank : ∀ level, ∀ c ∈ line level, isSpace c = true
  gap_blank : ∀ c ∈ gap, isSpace c = true

/-- The layout without blanks. -/
def Layout.dense : Layout where
  line _ := []
  gap := []
  line_blank := by simp
  gap_blank := by simp

/-- The layout of one item or member a line. -/
def Layout.lined : Layout where
  line := newLine
  gap := [' ']
  line_blank level c hc := by
    rcases List.mem_cons.mp hc with rfl | hc
    · rfl
    · rw [List.eq_of_mem_replicate hc]; rfl
  gap_blank := List.forall_mem_singleton.mpr rfl

mutual

/-- A value in a layout, from a level on. -/
def spell (l : Layout) (level : Nat) : Json → List Char
  | .arr (x :: xs) =>
    '[' :: l.line (level + 1) ++ spell l (level + 1) x ++ spellItems l (level + 1) xs ++
      l.line level ++ [']']
  | .obj ((k, v) :: ms) =>
    '\x7b' :: l.line (level + 1) ++ quote k ++ ':' :: l.gap ++ spell l (level + 1) v ++
      spellMembers l (level + 1) ms ++ l.line level ++ ['\x7d']
  | j => compact j

/-- Further items, each after a comma. -/
def spellItems (l : Layout) (level : Nat) : List Json → List Char
  | [] => []
  | x :: xs => ',' :: l.line level ++ spell l level x ++ spellItems l level xs

/-- Further members, each after a comma. -/
def spellMembers (l : Layout) (level : Nat) : List (String × Json) → List Char
  | [] => []
  | (k, v) :: ms =>
    ',' :: l.line level ++ quote k ++ ':' :: l.gap ++ spell l level v ++ spellMembers l level ms

end

mutual

theorem compact_eq_spell (level : Nat) : ∀ j : Json, j.compact = spell .dense level j
  | .arr (x :: xs) => by
    simp [compact, spell, Layout.dense, compact_eq_spell (level + 1) x,
      compactItems_eq_spellItems (level + 1) xs]
  | .obj ((k, v) :: ms) => by
    simp [compact, spell, Layout.dense, compact_eq_spell (level + 1) v,
      compactMembers_eq_spellMembers (level + 1) ms]
  | .null | .bool _ | .int _ | .float _ | .str _ | .arr [] | .obj [] => rfl

theorem compactItems_eq_spellItems (level : Nat) : ∀ xs : List Json,
    compactItems xs = spellItems .dense level xs
  | [] => rfl
  | x :: xs => by
    simp [compactItems, spellItems, Layout.dense, compact_eq_spell level x,
      compactItems_eq_spellItems level xs]

theorem compactMembers_eq_spellMembers (level : Nat) : ∀ ms : List (String × Json),
    compactMembers ms = spellMembers .dense level ms
  | [] => rfl
  | (k, v) :: ms => by
    simp [compactMembers, spellMembers, Layout.dense, compact_eq_spell level v,
      compactMembers_eq_spellMembers level ms]

end

mutual

theorem prettyAt_eq_spell (level : Nat) : ∀ j : Json, j.prettyAt level = spell .lined level j
  | .arr (x :: xs) => by
    simp [prettyAt, spell, Layout.lined, prettyAt_eq_spell (level + 1) x,
      prettyItems_eq_spellItems (level + 1) xs]
  | .obj ((k, v) :: ms) => by
    simp [prettyAt, spell, Layout.lined, prettyAt_eq_spell (level + 1) v,
      prettyMembers_eq_spellMembers (level + 1) ms]
  | .null | .bool true | .bool false | .int _ | .float _ | .str _ | .arr [] | .obj [] => by
    simp [prettyAt, spell, compact]

theorem prettyItems_eq_spellItems (level : Nat) : ∀ xs : List Json,
    prettyItems level xs = spellItems .lined level xs
  | [] => rfl
  | x :: xs => by
    simp [prettyItems, spellItems, Layout.lined, prettyAt_eq_spell level x,
      prettyItems_eq_spellItems level xs]

theorem prettyMembers_eq_spellMembers (level : Nat) : ∀ ms : List (String × Json),
    prettyMembers level ms = spellMembers .lined level ms
  | [] => rfl
  | (k, v) :: ms => by
    simp [prettyMembers, spellMembers, Layout.lined, prettyAt_eq_spell level v,
      prettyMembers_eq_spellMembers level ms]

end

end FormPage.Json
