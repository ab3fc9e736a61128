import FormPage.Document.Query
import FormPage.Proofs.Document.Graft

/-!
Searches upwards. A search goes from parent to parent, and from a node without one to its positioned
ancestor. The rule of a search sets no limit to it (`Ascends`); where its steps close no circle the
listed walk, which is cut off, gives the answer of the rule (`ascends_nearestAbove`). What a search
finds above an older node it also finds after a graft.
-/

namespace FormPage.Document

open Relation

variable {d : Document} {n p a : NodeId} {tag : Tag}

/-! ### First matches -/

/-- The answer of a search in a list: the first entry with a property, or none where no entry has
it. -/
inductive First {α : Type} (P : α → Prop) : List α → Option α → Prop
  | none {l : List α} (h : ∀ b ∈ l, ¬ P b) : First P l none
  | some {before behind : List α} {a : α} (ha : P a) (h : ∀ b ∈ before, ¬ P b) :
    First P (before ++ a :: behind) (some a)

theorem first_find? {α : Type} (P : α → Prop) [DecidablePred P] (l : List α) :
    First P l (l.find? P) := by
  cases ha : l.find? P with
  | none => exact .none fun b hb => by simpa using List.find?_eq_none.mp ha b hb
  | some a =>
    obtain ⟨hP, before, behind, rfl, hbefore⟩ := List.find?_eq_some_iff_append.mp ha
    exact .some (of_decide_eq_true hP) fun b hb => by simpa using hbefore b hb

theorem first_firstTagged (d : Document) (tag : Tag) (ns : List NodeId) :
    First (fun n => d.tag? n = some tag) ns (d.firstTagged tag ns) :=
  first_find? _ ns

/-- The node that a search starts at is found if it has the tag. -/
theorem firstTagged_path (next : NodeId → Option NodeId) (h : d.tag? n = some tag) :
    d.firstTagged tag (d.path next (some n)) = some n := by
  rw [firstTagged, path, follow, List.find?_cons_of_pos]
  exact decide_eq_true h

/-! ### Steps of a search -/

theorem upward?_of_size_le (h : d.size ≤ n) : d.upward? n = none := by
  simp [upward?, parent?, offsetParent?, offsetLink?, node?_eq_none_iff.mpr h]

theorem upward?_graft_old {place : List NodeId → List NodeId} {ss : List NodeSpec}
    (h : n < d.size) : (d.graft p place ss).upward? n = d.upward? n := by
  rw [upward?, upward?, offsetParent?, offsetParent?, parent?_graft_old h, offsetLink?_graft_old h]
  rfl

theorem WellFormed.upward_lt (h : WellFormed d) (hn : d.upward? n = some a) : a < d.size := by
  rw [upward?, Option.or_eq_some_iff] at hn
  rcases hn with hn | ⟨-, hn⟩
  · exact h.parent_lt n a hn
  · rw [offsetParent?] at hn
    split at hn
    · exact h.link_lt n a hn
    · cases hn

/-- Steps upwards that close no circle lead from node to node. -/
theorem WellFormed.acyclic_upward (h : WellFormed d)
    (hloop : ∀ n, ¬ TransGen (Step d.upward?) n n) : Acyclic d.upward? d.size where
  source_lt n a hn := by
    by_contra hlt
    rw [upward?_of_size_le (Nat.le_of_not_lt hlt)] at hn
    cases hn
  target_lt _ _ := h.upward_lt
  irrefl := hloop

/-- Steps upwards that all lead to earlier nodes close no circle. -/
theorem irrefl_of_upward_lt (h : ∀ n < d.size, (d.upward? n).all (· < n) = true) :
    ∀ n, ¬ TransGen (Step d.upward?) n n := by
  refine irrefl_of_lt fun n a hn => ?_
  have hlt : n < d.size := by
    by_contra hlt
    rw [upward?_of_size_le (Nat.le_of_not_lt hlt)] at hn
    cases hn
  have hall := h n hlt
  rw [hn] at hall
  simpa using hall

/-! ### Searches without a limit -/

/-- The rule of a search upwards: it ends where there is no node or where a node has the tag, and
goes on from any other node. -/
inductive Ascends (d : Document) (tag : Tag) : Option NodeId → Option NodeId → Prop
  | stop : Ascends d tag none none
  | found {n : NodeId} (h : d.tag? n = some tag) : Ascends d tag (some n) (some n)
  | next {n : NodeId} {answer : Option NodeId} (h : d.tag? n ≠ some tag)
      (hnext : Ascends d tag (d.upward? n) answer) : Ascends d tag (some n) answer

/-- Where the steps close no circle, every search ends, with the nearest match on the way up. -/
theorem ascends_nearestAbove (h : Acyclic d.upward? d.size) (tag : Tag) (start : Option NodeId) :
    Ascends d tag start (d.nearestAbove? start tag) := by
  have hsome : ∀ n, Ascends d tag (some n) (d.nearestAbove? (some n) tag) := by
    refine step_induction h fun n ih => ?_
    by_cases htag : d.tag? n = some tag
    · rw [nearestAbove?, firstTagged_path _ htag]
      exact .found htag
    · refine .next htag ?_
      rw [nearestAbove?, path_some h, firstTagged, List.find?_cons_of_neg (by simpa using htag)]
      cases hn : d.upward? n with
      | none => exact .stop
      | some m => exact ih m hn
  cases start with
  | none => exact .stop
  | some n => exact hsome n

/-- A search has one answer. -/
theorem Ascends.unique {start answer answer' : Option NodeId} (h : Ascends d tag start answer)
    (h' : Ascends d tag start answer') : answer = answer' := by
  induction h with
  | stop => cases h'; rfl
  | found htag =>
    cases h' with
    | found => rfl
    | next hne _ => exact absurd htag hne
  | next hne _ ih =>
    cases h' with
    | found htag => exact absurd htag hne
    | next _ hnext => exact ih hnext

theorem nearestAbove?_eq_iff (h : Acyclic d.upward? d.size) {start answer : Option NodeId} :
    d.nearestAbove? start tag = answer ↔ Ascends d tag start answer := by
  have hends := ascends_nearestAbove h tag start
  exact ⟨fun ha => ha ▸ hends, fun ha => hends.unique ha⟩

theorem nearestAbove?_eq_some_iff (h : Acyclic d.upward? d.size) {start : Option NodeId} :
    d.nearestAbove? start tag = some a ↔ Ascends d tag start (some a) :=
  nearestAbove?_eq_iff h

/-! ### Searches in a document that has grown -/

/-- What a walk finds it also finds by steps and tests that agree on the nodes that it can meet, and
with a higher limit. -/
theorem find?_follow_of_agree {next next' : NodeId → Option NodeId} {P P' : NodeId → Bool}
    {S : NodeId → Prop} (hnext : ∀ n, S n → next' n = next n)
    (hclosed : ∀ n m, S n → next n = some m → S m) (hP : ∀ n, S n → P' n = P n) :
    ∀ {k k' : Nat} {n : NodeId}, k ≤ k' → S n → (follow next k (some n)).find? P = some a →
      (follow next' k' (some n)).find? P' = some a
  | k + 1, k' + 1, n, hk, hn, h => by
    rw [follow, List.find?_cons] at h ⊢
    rw [hP n hn]
    split at h
    · exact h
    · rw [hnext n hn]
      cases hm : next n with
      | none => rw [hm, follow_none] at h; cases h
      | some m =>
        rw [hm] at h
        exact find?_follow_of_agree hnext hclosed hP (Nat.le_of_succ_le_succ hk)
          (hclosed n m hn hm) h

theorem lt_of_nearestAbove (h : d.nearestAbove? (some n) tag = some a) : n < d.size := by
  by_contra hn
  have hge := Nat.le_of_not_lt hn
  rw [nearestAbove?, path, follow, upward?_of_size_le hge, follow_none, firstTagged] at h
  have hmem := List.mem_singleton.mp (List.mem_of_find?_eq_some h)
  have htag := List.find?_some h
  rw [hmem] at htag
  exact hn (lt_size_of_tag (of_decide_eq_true htag))

/-- A graft does not change what is found above an older node. -/
theorem WellFormed.nearestAbove?_graft (h : WellFormed d) {place : List NodeId → List NodeId}
    {ss : List NodeSpec} (ha : d.nearestAbove? (some n) tag = some a) :
    (d.graft p place ss).nearestAbove? (some n) tag = some a := by
  have hlt := lt_of_nearestAbove ha
  have hsize : d.size + 1 ≤ (d.graft p place ss).size + 1 := by
    rw [size_graft]
    omega
  rw [nearestAbove?, firstTagged, path] at ha ⊢
  exact find?_follow_of_agree (S := (· < d.size)) (fun _ => upward?_graft_old)
    (fun _ _ _ hm => h.upward_lt hm) (fun m hm => by rw [tag?_graft_old hm]) hsize hlt ha

end FormPage.Document
