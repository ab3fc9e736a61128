import FormPage.OrderedMap
import Mathlib.Data.List.Nodup

/-!
Ordered maps written entry by entry. A write at a new key goes to the end, so that a map is rebuilt
from its own entries, in their order; from its entries in another order results the same map up to
the order.
-/

namespace FormPage.OrderedMap

variable {κ ν : Type} [DecidableEq κ] {k : κ} {v : ν}

theorem put_of_not_mem : ∀ {es : List (κ × ν)}, k ∉ es.map Prod.fst → put k v es = es ++ [(k, v)]
  | [], _ => rfl
  | e :: rest, h => by
    obtain ⟨hne, hrest⟩ := not_or.mp (mt List.mem_cons.mpr h)
    rw [put, if_neg (Ne.symm hne), put_of_not_mem hrest]; rfl

theorem put_put (w : ν) : ∀ es : List (κ × ν), put k w (put k v es) = put k w es
  | [] => by simp only [put, if_true]
  | e :: rest => by
    by_cases he : e.1 = k
    · rw [put, if_pos he, put, if_pos rfl, put, if_pos he]
    · rw [put, if_neg he, put, if_neg he, put_put w rest, put, if_neg he]

/-- Of two writes at one key only the last is seen, also in the order of the entries. -/
theorem insert_insert (m : OrderedMap κ ν) (w : ν) : (m.insert k v).insert k w = m.insert k w :=
  OrderedMap.ext (put_put w m.entries)

/-- Entries with new keys are written behind the old ones. -/
theorem foldl_put : ∀ {new old : List (κ × ν)}, ((old ++ new).map Prod.fst).Nodup →
    new.foldl (fun es e => put e.1 e.2 es) old = old ++ new
  | [], old, _ => by simp
  | e :: new, old, h => by
    have hsplit : old ++ e :: new = (old ++ [e]) ++ new := by simp
    have he : e.1 ∉ old.map Prod.fst := by
      rw [List.map_append, List.map_cons, List.nodup_middle] at h
      exact fun hm => h.notMem (List.mem_append_left _ hm)
    rw [List.foldl_cons, put_of_not_mem he, hsplit]
    exact foldl_put (hsplit ▸ h)

theorem entries_foldl_insert : ∀ (es : List (κ × ν)) (m : OrderedMap κ ν),
    (es.foldl (fun m e => m.insert e.1 e.2) m).entries =
      es.foldl (fun es e => put e.1 e.2 es) m.entries
  | [], _ => rfl
  | e :: es, m => entries_foldl_insert es (m.insert e.1 e.2)

theorem entries_ofList {es : List (κ × ν)} (h : (es.map Prod.fst).Nodup) :
    (ofList es).entries = es := by
  rw [ofList, entries_foldl_insert]
  exact foldl_put h

/-- A map is rebuilt from its entries. -/
theorem ofList_entries (m : OrderedMap κ ν) : ofList m.entries = m :=
  OrderedMap.ext (entries_ofList m.nodup)

theorem lookup_eq_none_iff {es : List (κ × ν)} : lookup k es = none ↔ k ∉ es.map Prod.fst := by
  induction es with
  | nil => simp [lookup]
  | cons e es ih =>
    by_cases he : e.1 = k
    · simp [lookup, he]
    · simp [lookup, he, ih, Ne.symm he]

/-- A key without a value is none of the keys of the entries. -/
theorem get?_eq_none_iff (m : OrderedMap κ ν) : m.get? k = none ↔ k ∉ m.entries.map Prod.fst :=
  lookup_eq_none_iff

/-! ### Maps up to the order of their entries -/

omit [DecidableEq κ] in
/-- Two maps have the same entries, in any order. -/
def Same (m m' : OrderedMap κ ν) : Prop := m.entries.Perm m'.entries

theorem ofList_same {es : List (κ × ν)} {m : OrderedMap κ ν} (h : es.Perm m.entries) :
    (ofList es).Same m := by
  rw [Same, entries_ofList ((h.map Prod.fst).nodup_iff.mpr m.nodup)]
  exact h

omit [DecidableEq κ] in
theorem Same.eq_empty {m m' : OrderedMap κ ν} (h : m.Same m') (hempty : m'.isEmpty) : m = ∅ := by
  rw [Same, List.isEmpty_iff.mp hempty] at h
  exact OrderedMap.ext h.eq_nil

/-- Writes that never fail make the map of what they write. -/
theorem foldlM_insert {ε β : Type} {f : κ × ν → β}
    {step : OrderedMap κ ν → β → Except ε (OrderedMap κ ν)}
    (hstep : ∀ m e, step m (f e) = .ok (m.insert e.1 e.2)) :
    ∀ (es : List (κ × ν)) (m : OrderedMap κ ν), (es.map f).foldlM step m =
      .ok (es.foldl (fun m e => m.insert e.1 e.2) m)
  | [], _ => rfl
  | e :: es, m => by
    rw [List.map_cons, List.foldlM_cons, hstep]
    exact foldlM_insert hstep es (m.insert e.1 e.2)

end FormPage.OrderedMap
