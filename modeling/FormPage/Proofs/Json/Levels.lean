import FormPage.Json.Basic

/-!
How deep the arrays and objects of a JSON value lie, and induction on values along their levels.
-/

namespace FormPage.Json

mutual

/-- The number of arrays and objects around the innermost ones of a value, these included. -/
def levels : Json → Nat
  | .arr items => itemLevels items + 1
  | .obj members => memberLevels members + 1
  | _ => 0

/-- The levels of the deepest item. -/
def itemLevels : List Json → Nat
  | [] => 0
  | x :: xs => max x.levels (itemLevels xs)

/-- The levels of the deepest member. -/
def memberLevels : List (String × Json) → Nat
  | [] => 0
  | (_, v) :: ms => max v.levels (memberLevels ms)

end

variable {k : Nat} {xs : List Json} {ms : List (String × Json)}

theorem itemLevels_le : itemLevels xs ≤ k ↔ ∀ x ∈ xs, x.levels ≤ k := by
  induction xs with
  | nil => simp [itemLevels]
  | cons x xs ih => rw [itemLevels, Nat.max_le, ih, List.forall_mem_cons]

theorem memberLevels_le : memberLevels ms ≤ k ↔ ∀ m ∈ ms, m.2.levels ≤ k := by
  induction ms with
  | nil => simp [memberLevels]
  | cons m ms ih => rw [memberLevels, Nat.max_le, ih, List.forall_mem_cons]

theorem levels_arr_le : (Json.arr xs).levels ≤ k + 1 ↔ ∀ x ∈ xs, x.levels ≤ k := by
  rw [levels, Nat.add_le_add_iff_right, itemLevels_le]

theorem levels_obj_le : (Json.obj ms).levels ≤ k + 1 ↔ ∀ m ∈ ms, m.2.levels ≤ k := by
  rw [levels, Nat.add_le_add_iff_right, memberLevels_le]

/-- A value can be reasoned about from its items and its members. -/
theorem of_parts {P : Json → Prop} (null : P .null) (bool : ∀ b, P (.bool b))
    (int : ∀ n, P (.int n)) (float : ∀ x, P (.float x)) (str : ∀ s, P (.str s))
    (arr : ∀ items, (∀ x ∈ items, P x) → P (.arr items))
    (obj : ∀ ms, (∀ m ∈ ms, P m.2) → P (.obj ms)) (j : Json) : P j := by
  induction hk : j.levels using Nat.strongRecOn generalizing j with
  | ind k ih =>
    cases j with
    | null => exact null
    | bool b => exact bool b
    | int n => exact int n
    | float x => exact float x
    | str s => exact str s
    | arr items =>
      rw [levels] at hk
      refine arr items fun x hx => ih x.levels ?_ x rfl
      have hle := itemLevels_le.mp (Nat.le_refl _) x hx
      omega
    | obj ms =>
      rw [levels] at hk
      refine obj ms fun m hm => ih m.2.levels ?_ m.2 rfl
      have hle := memberLevels_le.mp (Nat.le_refl _) m hm
      omega

end FormPage.Json
