import FormPage.Json.Basic
import Mathlib.Data.List.Nodup
import Mathlib.Data.List.Perm.Basic
import Mathlib.Data.String.Basic

/-!
Members of JSON objects. Bringing members into the order of their keys loses none of them as long as
no two have the same key; it only reorders them (`ofMembers_map`). The result is in ascending order
of the keys, and members that are so already stay as they are.
-/

namespace FormPage.Json

theorem putMember_perm {k : String} (v : Json) : ∀ {ms : List (String × Json)},
    k ∉ ms.map Prod.fst → (putMember k v ms).Perm ((k, v) :: ms)
  | [], _ => .refl _
  | m :: rest, h => by
    obtain ⟨hne, hrest⟩ := not_or.mp (mt List.mem_cons.mpr h)
    rw [putMember]
    split
    · exact .refl _
    · rw [if_neg (Ne.symm hne)]
      exact ((putMember_perm v hrest).cons m).trans (.swap (k, v) m rest)

/-- Members with new keys are put among the old ones. -/
theorem foldl_putMember_perm : ∀ {new old : List (String × Json)},
    ((old ++ new).map Prod.fst).Nodup →
      (new.foldl (fun acc m => putMember m.1 m.2 acc) old).Perm (old ++ new)
  | [], old, _ => by rw [List.append_nil]; exact .refl _
  | m :: new, old, h => by
    have hm : m.1 ∉ old.map Prod.fst := by
      rw [List.map_append, List.map_cons, List.nodup_middle] at h
      exact fun hk => h.notMem (List.mem_append_left _ hk)
    have hstep : (putMember m.1 m.2 old ++ new).Perm (old ++ m :: new) :=
      ((putMember_perm m.2 hm).append_right new).trans List.perm_middle.symm
    exact (foldl_putMember_perm ((hstep.map Prod.fst).nodup_iff.mpr h)).trans hstep

/-- An object written from entries with different keys has the members of these entries, in some
order. -/
theorem ofMembers_map {α : Type} (f : α → String × Json) {es : List α}
    (h : (es.map fun e => (f e).1).Nodup) :
    ∃ es' : List α, ofMembers (es.map f) = .obj (es'.map f) ∧ es'.Perm es := by
  have hperm : ((es.map f).foldl (fun acc m => putMember m.1 m.2 acc) []).Perm (es.map f) :=
    foldl_putMember_perm (by rwa [List.nil_append, List.map_map])
  obtain ⟨es', heq, hes⟩ := (congrFun₂ (List.eq_map_comp_perm f) _ es).mpr hperm
  exact ⟨es', congrArg Json.obj heq, hes⟩

/-! ### The order of keys -/

/-- The keys of members ascend. -/
def Ascending (ms : List (String × Json)) : Prop := (ms.map Prod.fst).Pairwise (· < ·)

theorem mem_putMember {k : String} {v : Json} {m : String × Json} {ms : List (String × Json)}
    (h : m ∈ putMember k v ms) : m = (k, v) ∨ m ∈ ms := by
  induction ms with
  | nil => exact .inl (List.mem_singleton.mp h)
  | cons m' rest ih =>
    rw [putMember] at h
    split at h
    · exact List.mem_cons.mp h
    · split at h
      · rcases List.mem_cons.mp h with h | h
        · exact .inl h
        · exact .inr (List.mem_cons_of_mem _ h)
      · rcases List.mem_cons.mp h with h | h
        · exact .inr (List.mem_cons.mpr (.inl h))
        · exact (ih h).imp_right (List.mem_cons_of_mem _)

theorem Ascending.putMember {k : String} (v : Json) {ms : List (String × Json)}
    (h : Ascending ms) : Ascending (putMember k v ms) := by
  induction ms with
  | nil => exact List.pairwise_singleton _ _
  | cons m rest ih =>
    obtain ⟨hm, hrest⟩ := List.pairwise_cons.mp h
    rw [Json.putMember]
    split
    · rename_i hlt
      refine List.pairwise_cons.mpr ⟨?_, h⟩
      intro k' hk'
      rcases List.mem_cons.mp hk' with rfl | hk'
      · exact hlt
      · exact lt_trans hlt (hm k' hk')
    · split
      · rename_i heq
        subst heq
        exact h
      · rename_i hnlt hne
        have hlt : m.1 < k := lt_of_le_of_ne (not_lt.mp hnlt) hne
        refine List.pairwise_cons.mpr ⟨?_, ih hrest⟩
        intro k' hk'
        obtain ⟨m', hm', rfl⟩ := List.mem_map.mp hk'
        rcases mem_putMember hm' with rfl | hm'
        · exact hlt
        · exact hm m'.1 (List.mem_map_of_mem hm')

/-- Members that were brought into order are some of the given ones, and their keys ascend. -/
theorem ofMembers_eq (ms : List (String × Json)) :
    ∃ ms', ofMembers ms = .obj ms' ∧ Ascending ms' ∧ ∀ m ∈ ms', m ∈ ms := by
  suffices hfold : ∀ (new old : List (String × Json)), Ascending old →
      Ascending (new.foldl (fun acc m => putMember m.1 m.2 acc) old) ∧
        ∀ m ∈ new.foldl (fun acc m => putMember m.1 m.2 acc) old, m ∈ old ∨ m ∈ new by
    obtain ⟨hascending, hmem⟩ := hfold ms [] .nil
    exact ⟨_, rfl, hascending, fun m hm => (hmem m hm).resolve_left List.not_mem_nil⟩
  intro new
  induction new with
  | nil => exact fun old hold => ⟨hold, fun m hm => .inl hm⟩
  | cons m new ih =>
    intro old hold
    obtain ⟨hascending, hmem⟩ := ih (putMember m.1 m.2 old) (hold.putMember m.2)
    refine ⟨hascending, ?_⟩
    intro m' hm'
    rcases hmem m' hm' with h | h
    · rcases mem_putMember h with rfl | h
      · exact .inr List.mem_cons_self
      · exact .inl h
    · exact .inr (List.mem_cons_of_mem _ h)

theorem putMember_of_last {k : String} (v : Json) : ∀ {ms : List (String × Json)},
    (∀ k' ∈ ms.map Prod.fst, k' < k) → putMember k v ms = ms ++ [(k, v)]
  | [], _ => rfl
  | m :: rest, h => by
    obtain ⟨hm, hrest⟩ := List.forall_mem_cons.mp h
    rw [putMember, if_neg (lt_asymm hm), if_neg (ne_of_lt hm), putMember_of_last v hrest]
    rfl

/-- Members whose keys ascend stay as they are. -/
theorem ofMembers_of_ascending {ms : List (String × Json)} (h : Ascending ms) :
    ofMembers ms = .obj ms := by
  suffices hfold : ∀ (new old : List (String × Json)), Ascending (old ++ new) →
      new.foldl (fun acc m => putMember m.1 m.2 acc) old = old ++ new by
    rw [ofMembers, hfold ms [] h]
    rfl
  intro new
  induction new with
  | nil => exact fun old _ => (List.append_nil old).symm
  | cons m new ih =>
    intro old hold
    have hsplit : old ++ m :: new = (old ++ [m]) ++ new := by simp
    have hlast : ∀ k' ∈ old.map Prod.fst, k' < m.1 := by
      rw [Ascending, List.map_append, List.pairwise_append] at hold
      exact fun k' hk' => hold.2.2 k' hk' m.1 List.mem_cons_self
    rw [List.foldl_cons, putMember_of_last m.2 hlast, hsplit]
    exact ih (old ++ [m]) (hsplit ▸ hold)

end FormPage.Json
