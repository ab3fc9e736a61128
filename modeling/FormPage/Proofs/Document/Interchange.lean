import FormPage.Proofs.Document.AlikeEdits
import FormPage.Proofs.Document.Relayout

/-!
Two trees that are put in front of nodes with different parents, in either order. The nodes of each
tree are numbered behind those of the other one or ahead of them, and nothing else differs: under
the pairing of these numbers (`Swapped`) the two documents look alike. A layout in between makes no
difference once the layout is made anew.
-/

namespace FormPage.Document

open Relator NodeSpec

variable {d d' : Document} {n n' p q a b base base' : NodeId} {s t : NodeSpec} {k l size : Nat}
  {r : NodeId → NodeId → Prop}

/-! ### Paired trees -/

/-- One tree that stands at two places shows the same at both, with paired links. -/
theorem Holds.rel (h : d.Holds p base s) (h' : d'.Holds q base' s) (hp : r p q)
    (hr : ∀ i < s.flat.length, r (base + i) (base' + i)) {i : Nat} (hi : i < s.flat.length) :
    d.face? (base + i) = d'.face? (base' + i) ∧
      Option.Rel r (d.parent? (base + i)) (d'.parent? (base' + i)) ∧
      List.Forall₂ r (d.children (base + i)) (d'.children (base' + i)) := by
  have hrel := getElem?_rel (nodes_rel (.some hp) hr) i
  obtain ⟨x, hx⟩ : ∃ x, (s.nodes (some p) base)[i]? = some x := by
    rw [← length_nodes (some p) base s] at hi
    exact ⟨_, List.getElem?_eq_getElem hi⟩
  rw [hx] at hrel
  obtain ⟨x', hx', hface, hparent, hchildren⟩ := exists_of_rel hrel
  have hnode := h i x hx
  have hnode' := h' i x' hx'
  rw [face?_of_node hnode, face?_of_node hnode', parent?_of_node hnode, parent?_of_node hnode',
    children_of_node hnode, children_of_node hnode']
  exact ⟨congrArg some hface, hparent, hchildren⟩

/-! ### Swapped numbers -/

/-- A node below `size` is paired with itself, one of the next `k` nodes with one behind `l` others,
and one of the `l` nodes behind them with one of the first `l`. -/
def Swapped (size k l n n' : Nat) : Prop :=
  (n < size ∧ n' = n) ∨ (∃ i < k, n = size + i ∧ n' = size + l + i) ∨
    ∃ j < l, n = size + k + j ∧ n' = size + j

theorem Swapped.old (h : n < size) : Swapped size k l n n := .inl ⟨h, rfl⟩

theorem Swapped.first {i : Nat} (h : i < k) : Swapped size k l (size + i) (size + l + i) :=
  .inr (.inl ⟨i, h, rfl, rfl⟩)

theorem Swapped.second {j : Nat} (h : j < l) : Swapped size k l (size + k + j) (size + j) :=
  .inr (.inr ⟨j, h, rfl, rfl⟩)

theorem Swapped.lt {n n' : Nat} (h : Swapped size k l n n') : n < size + k + l := by
  rcases h with ⟨hn, -⟩ | ⟨i, hi, rfl, -⟩ | ⟨j, hj, rfl, -⟩ <;> omega

theorem Swapped.old_or_new {n n' : Nat} (h : Swapped size k l n n') :
    n' = n ∨ (size ≤ n ∧ size ≤ n') := by
  rcases h with ⟨-, rfl⟩ | ⟨i, -, rfl, rfl⟩ | ⟨j, -, rfl, rfl⟩ <;> omega

theorem biUnique_swapped (size k l : Nat) : BiUnique (Swapped size k l) := by
  constructor
  · rintro a b c (⟨ha, rfl⟩ | ⟨i, hi, rfl, rfl⟩ | ⟨j, hj, rfl, rfl⟩)
      (⟨hb, hc⟩ | ⟨i', hi', rfl, hc⟩ | ⟨j', hj', rfl, hc⟩) <;> omega
  · rintro a b c (⟨ha, rfl⟩ | ⟨i, hi, rfl, rfl⟩ | ⟨j, hj, rfl, rfl⟩)
      (⟨hb, rfl⟩ | ⟨i', hi', hc, rfl⟩ | ⟨j', hj', hc, rfl⟩) <;> omega

/-- Older nodes are paired with themselves. -/
theorem forall₂_swapped {ns : List NodeId} (h : ∀ n ∈ ns, n < size) :
    List.Forall₂ (Swapped size k l) ns ns :=
  List.forall₂_same.mpr fun n hn => .old (h n hn)

theorem rel_swapped {m : Option NodeId} (h : ∀ n, m = some n → n < size) :
    Option.Rel (Swapped size k l) m m := by
  cases m with
  | none => exact .none
  | some n => exact .some (.old (h n rfl))

/-! ### Two trees in front of nodes with different parents -/

/-- Adds the tree of a description in front of the child `a` of `p`. -/
def graftAhead (d : Document) (p a : NodeId) (s : NodeSpec) : Document :=
  d.graft p (insertAhead a d.size) [s]

theorem size_graftAhead (d : Document) (p a : NodeId) (s : NodeSpec) :
    (d.graftAhead p a s).size = d.size + s.flat.length := by
  rw [graftAhead, size_graft, flatAll, flatAll, List.append_nil]

theorem children_graftAhead_old (h : n < d.size) : (d.graftAhead p a s).children n =
    if n = p then insertAhead a d.size (d.children p) else d.children n :=
  children_graft_old h

/-- Both trees stand where they were put. -/
theorem holds_twice (d : Document) (p a b : NodeId) (s t : NodeSpec) (hq : q < d.size) :
    ((d.graftAhead p a s).graftAhead q b t).Holds p d.size s ∧
      ((d.graftAhead p a s).graftAhead q b t).Holds q (d.size + s.flat.length) t := by
  constructor
  · refine (holds_graft d p (insertAhead a d.size) s).of_kept fun n hn hlt => ?_
    exact node?_graft_other hlt (Nat.ne_of_gt (Nat.lt_of_lt_of_le hq hn))
  · rw [← size_graftAhead d p a s]
    exact holds_graft _ q _ t

/-- Of the older nodes only the two parents have new children. -/
theorem old_twice (a b : NodeId) (s t : NodeSpec) (hn : n < d.size) (hpq : p ≠ q) :
    ((d.graftAhead p a s).graftAhead q b t).face? n = d.face? n ∧
      ((d.graftAhead p a s).graftAhead q b t).parent? n = d.parent? n ∧
      ((d.graftAhead p a s).graftAhead q b t).children n =
        if n = p then insertAhead a d.size (d.children n)
        else if n = q then insertAhead b (d.size + s.flat.length) (d.children n)
        else d.children n := by
  have hn' : n < (d.graftAhead p a s).size := by
    rw [size_graftAhead]
    exact Nat.lt_of_lt_of_le hn (Nat.le_add_right _ _)
  refine ⟨(face?_graft_old hn').trans (face?_graft_old hn),
    (parent?_graft_old hn').trans (parent?_graft_old hn), ?_⟩
  rw [children_graftAhead_old hn', size_graftAhead]
  by_cases hnq : n = q
  · subst hnq
    rw [if_pos rfl, if_neg (Ne.symm hpq), if_pos rfl, children_graftAhead_old hn,
      if_neg (Ne.symm hpq)]
  · rw [if_neg hnq, if_neg hnq, children_graftAhead_old hn]
    by_cases hnp : n = p
    · rw [if_pos hnp, if_pos hnp, hnp]
    · rw [if_neg hnp, if_neg hnp]

/-- The children of an older node, with one of the new trees among them if it is a parent of one. -/
theorem old_children_swapped (h : WellFormed d) (ha : d.parent? a = some p)
    (hb : d.parent? b = some q) (hpq : p ≠ q) (s t : NodeSpec) (hn : n < d.size) :
    List.Forall₂ (Swapped d.size s.flat.length t.flat.length)
      (((d.graftAhead p a s).graftAhead q b t).children n)
      (((d.graftAhead q b t).graftAhead p a s).children n) := by
  have hunique := biUnique_swapped d.size s.flat.length t.flat.length
  have hold := forall₂_swapped (k := s.flat.length) (l := t.flat.length) (h.child_lt n)
  rw [(old_twice a b s t hn hpq).2.2, (old_twice b a t s hn (Ne.symm hpq)).2.2]
  by_cases hnp : n = p
  · rw [if_pos hnp, if_neg fun hnq => hpq (hnp.symm.trans hnq), if_pos hnp]
    exact insertAhead_rel hunique (.old (lt_size_of_parent ha))
      (Swapped.first (i := 0) s.length_flat_pos) hold
  · rw [if_neg hnp, if_neg hnp]
    by_cases hnq : n = q
    · rw [if_pos hnq, if_pos hnq]
      exact insertAhead_rel hunique (.old (lt_size_of_parent hb))
        (Swapped.second (j := 0) t.length_flat_pos) hold
    · rw [if_neg hnq, if_neg hnq]
      exact hold

/-- Two trees in front of nodes with different parents, put there in either order. -/
theorem alike_swapped (h : WellFormed d) (ha : d.parent? a = some p) (hb : d.parent? b = some q)
    (hpq : p ≠ q) (s t : NodeSpec) : Alike (Swapped d.size s.flat.length t.flat.length)
      ((d.graftAhead p a s).graftAhead q b t) ((d.graftAhead q b t).graftAhead p a s) := by
  have hp := h.parent_lt a p ha
  have hq := h.parent_lt b q hb
  have hbody : body < d.size := by
    rcases Nat.lt_or_gt_of_ne hpq with hlt | hlt
    · exact Nat.lt_of_le_of_lt (Nat.one_le_of_lt hlt) hq
    · exact Nat.lt_of_le_of_lt (Nat.one_le_of_lt hlt) hp
  obtain ⟨hs, ht⟩ := holds_twice d p a b s t hq
  obtain ⟨ht', hs'⟩ := holds_twice d q b a t s hp
  have hfirst := fun i => hs.rel (i := i) hs' (.old hp) fun _ => Swapped.first (l := t.flat.length)
  have hsecond := fun j => ht.rel (i := j) ht' (.old hq) fun _ => Swapped.second
  constructor
  case unique => exact biUnique_swapped _ _ _
  case root => exact .old (Nat.zero_lt_of_lt hbody)
  case body => exact .old hbody
  case lt_size =>
    intro n n' hn
    rw [size_graftAhead, size_graftAhead]
    exact hn.lt
  case face =>
    rintro _ n (⟨hn, rfl⟩ | ⟨i, hi, rfl, rfl⟩ | ⟨j, hj, rfl, rfl⟩)
    · rw [(old_twice a b s t hn hpq).1, (old_twice b a t s hn (Ne.symm hpq)).1]
    · exact (hfirst i hi).1
    · exact (hsecond j hj).1
  case parent =>
    rintro _ n (⟨hn, rfl⟩ | ⟨i, hi, rfl, rfl⟩ | ⟨j, hj, rfl, rfl⟩)
    · rw [(old_twice a b s t hn hpq).2.1, (old_twice b a t s hn (Ne.symm hpq)).2.1]
      exact rel_swapped fun m hm => h.parent_lt _ m hm
    · exact (hfirst i hi).2.1
    · exact (hsecond j hj).2.1
  case children =>
    rintro _ n (⟨hn, rfl⟩ | ⟨i, hi, rfl, rfl⟩ | ⟨j, hj, rfl, rfl⟩)
    · exact old_children_swapped h ha hb hpq s t hn
    · exact (hfirst i hi).2.2
    · exact (hsecond j hj).2.2

/-! ### A layout in between -/

/-- A tree that is grafted tells documents apart no further than their links do. -/
theorem SameButLinks.graft (h : SameButLinks d d') (p : NodeId)
    (place : List NodeId → List NodeId) (ss : List NodeSpec) :
    SameButLinks (d.graft p place ss) (d'.graft p place ss) where
  size := by rw [size_graft, size_graft, h.size]
  reportsOffsets := h.reportsOffsets
  node n := by
    rcases old_or_new d n with hn | ⟨i, rfl⟩
    · rw [node?_graft_old hn, node?_graft_old (h.size.symm ▸ hn), node?_update, node?_update]
      split
      · rw [Option.map_map, Option.map_map]
        exact h.map_node? _ (fun _ => rfl) n
      · exact h.node n
    · rw [node?_graft_new, ← h.size, node?_graft_new]

/-- Layouts before the last one make no difference. -/
theorem relayout_graftAhead_relayout (d : Document) (p a : NodeId) (s : NodeSpec) :
    (d.relayout.graftAhead p a s).relayout = (d.graftAhead p a s).relayout := by
  rw [graftAhead, size_relayout]
  exact ((sameButLinks_relayout d).graft p (insertAhead a d.size) [s]).relayout_eq

end FormPage.Document
