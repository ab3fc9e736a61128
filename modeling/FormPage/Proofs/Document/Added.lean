import FormPage.Proofs.Document.Graft

/-!
Edits of nodes that were added but are linked to nothing yet. On them no edit of the interface can
fail for a reason of place, so that a tree which is put together piece by piece is the tree of a
description; once it is put into an older parent it is a graft.
-/

namespace FormPage.Document

open NodeSpec (nodes nodesAll places flatAll)

variable {d : Document} {n m p r : NodeId} {xs : List Node} {i j : Nat} {x y : Node}

/-! ### Nodes without a parent -/

theorem inclusiveAncestors_of_top (h : d.parent? n = none) : d.inclusiveAncestors n = [n] := by
  rw [inclusiveAncestors, path, follow, h, follow_none]

theorem detach_of_top (h : d.parent? n = none) : d.detach n = d := by rw [detach, h]

theorem tag?_addNodes_new (d : Document) (xs : List Node) (i : Nat) :
    (d.addNodes xs).tag? (d.size + i) = xs[i]?.map (·.tag) := by
  rw [tag?, node?_addNodes_new]

theorem parent?_addNodes_new (d : Document) (xs : List Node) (i : Nat) :
    (d.addNodes xs).parent? (d.size + i) = xs[i]?.bind (·.parent) := by
  rw [parent?, node?_addNodes_new]

theorem createElement_added (d : Document) (xs : List Node) (tag : Tag) :
    (d.addNodes xs).edit (createElement tag) =
      (.ok (d.size + xs.length), d.addNodes (xs ++ [{ tag := tag }])) := by
  rw [← push_addNodes, ← size_addNodes]; rfl

theorem createText_added (d : Document) (xs : List Node) (text : String) :
    (d.addNodes xs).edit (createText text) =
      (.ok (d.size + xs.length), d.addNodes (xs ++ [{ tag := .text, text }])) := by
  rw [← push_addNodes, ← size_addNodes]; rfl

theorem setAttribute_added (hx : xs[i]? = some x) (hne : x.tag ≠ .text) (name value : String) :
    (d.addNodes xs).edit (setAttribute (d.size + i) name value) = (.ok (), d.addNodes
      (xs.modify i fun x => { x with attributes := x.attributes.insert name value })) := by
  have ht : (d.addNodes xs).tag? (d.size + i) = some x.tag := by
    rw [tag?_addNodes_new, hx]; rfl
  rw [edit_setAttribute ht hne, update_addNodes_new]

theorem restyle_added (d : Document) (xs : List Node) (i : Nat) (f : Style → Style) :
    (d.addNodes xs).edit (Balloon.restyle (d.size + i) f) =
      (.ok (), d.addNodes (xs.modify i fun x => { x with style := f x.style })) := by
  rw [← update_addNodes_new]; rfl

theorem edit_appendChild (h : d.placementError? p n = none) :
    d.edit (appendChild p n) = (.ok (), (d.detach n).link p n (· ++ [n])) := by
  simp only [edit, appendChild, ExceptT.run, StateT.run, h]

/-- Two added nodes without parents may be put together. -/
theorem appendChild_added (h : 0 < d.size) (hx : xs[i]? = some x) (hy : xs[j]? = some y)
    (hxp : x.parent = none) (hyp : y.parent = none) (hv : x.tag.isVoid = false) (hne : j ≠ i) :
    (d.addNodes xs).edit (appendChild (d.size + i) (d.size + j)) = (.ok (), d.addNodes
      ((xs.modify j fun y => { y with parent := some (d.size + i) }).modify i fun x =>
        { x with children := x.children ++ [d.size + j] })) := by
  have htop : ∀ {k z}, xs[k]? = some z → z.parent = none →
      (d.addNodes xs).parent? (d.size + k) = none := fun hz hzp => by
    rw [parent?_addNodes_new, hz]; exact hzp
  have hj : j < xs.length := (List.getElem?_eq_some_iff.mp hy).1
  have hplace : (d.addNodes xs).placementError? (d.size + i) (d.size + j) = none := by
    refine placementError?_eq_none.mpr ⟨x.tag, ?_, ?_, hv, ?_, ?_⟩
    · rw [tag?_addNodes_new, hx]; rfl
    · rw [size_addNodes]; exact Nat.add_lt_add_left hj _
    · exact Nat.ne_of_gt (Nat.lt_of_lt_of_le h (Nat.le_add_right _ _))
    · rw [inclusiveAncestors_of_top (htop hx hxp), List.mem_singleton]
      exact fun h => hne (Nat.add_left_cancel h)
  rw [edit_appendChild hplace, detach_of_top (htop hy hyp), link, update_addNodes_new,
    update_addNodes_new]

/-! ### Growing one tree from its topmost node -/

variable {s : NodeSpec} {t : Tag}

theorem createElement_first (d : Document) (tag : Tag) :
    d.edit (createElement tag) = (.ok d.size, d.addNodes [{ tag := tag }]) := by
  rw [← push_eq_addNodes]; rfl

theorem setAttribute_first (hne : x.tag ≠ .text) (name value : String) :
    (d.addNodes (x :: xs)).edit (setAttribute d.size name value) =
      (.ok (), d.addNodes ({ x with attributes := x.attributes.insert name value } :: xs)) :=
  setAttribute_added (i := 0) rfl hne name value

theorem restyle_first (d : Document) (x : Node) (xs : List Node) (f : Style → Style) :
    (d.addNodes (x :: xs)).edit (Balloon.restyle d.size f) =
      (.ok (), d.addNodes ({ x with style := f x.style } :: xs)) :=
  restyle_added d (x :: xs) 0 f

theorem modify_append_cons {α : Type} (f : α → α) (a : α) (post : List α) :
    ∀ pre : List α, (pre ++ a :: post).modify pre.length f = pre ++ f a :: post
  | [] => rfl
  | b :: pre => by
    rw [List.cons_append, List.length_cons, List.modify_succ_cons, modify_append_cons f a post pre]
    rfl

/-- A laid-out tree becomes the last child of the topmost added node. -/
theorem appendChild_first (h : 0 < d.size) (hx : x.parent = none) (hv : x.tag.isVoid = false)
    (s : NodeSpec) : ((d.addNodes (x :: xs)).lay s).edit
        (appendChild d.size (d.addNodes (x :: xs)).size) =
      (.ok (), d.addNodes ({ x with children := x.children ++ [d.size + (xs.length + 1)] } ::
        (xs ++ s.nodes (some d.size) (d.size + (xs.length + 1))))) := by
  have hlen : (x :: xs).length = xs.length + 1 := rfl
  have hy : ((x :: xs) ++ s.nodes none (d.size + (xs.length + 1)))[xs.length + 1]? =
      some (s.node none (d.size + (xs.length + 1))) := by
    rw [List.getElem?_append_right (Nat.le_of_eq hlen), hlen, Nat.sub_self, NodeSpec.nodes_eq]
    rfl
  have hgrown := appendChild_added (i := 0) (j := xs.length + 1) h rfl hy hx rfl hv
    (Nat.succ_ne_zero _)
  rw [lay_addNodes, size_addNodes, hlen]
  refine hgrown.trans ?_
  rw [NodeSpec.nodes_eq, NodeSpec.nodes_eq, List.cons_append, List.modify_succ_cons,
    List.modify_zero_cons]
  rw [modify_append_cons]
  rfl

/-! ### Putting a laid-out tree into place -/

theorem tag?_lay_old (h : n < d.size) : (d.lay s).tag? n = d.tag? n := by
  rw [tag?, tag?, node?_lay_old h]

theorem parent?_lay_size (d : Document) (s : NodeSpec) : (d.lay s).parent? d.size = none := by
  have h := parent?_addNodes_new d (s.nodes none d.size) 0
  rw [Nat.add_zero] at h
  rw [lay, h, NodeSpec.nodes_eq]; rfl

theorem size_lt_lay (d : Document) (s : NodeSpec) : d.size < (d.lay s).size := by
  rw [size_lay]; exact Nat.lt_add_of_pos_right s.length_flat_pos

theorem WellFormed.lt_of_lay (h : WellFormed d) (hp : p < d.size)
    (hm : m ∈ (d.lay s).inclusiveAncestors p) : m < d.size := by
  have hr := reaches_of_mem_follow hm
  clear hm
  induction hr with
  | refl => exact hp
  | tail _ hs ih =>
    rw [Step, parent?_lay_old ih] at hs
    exact h.parent_lt _ _ hs

theorem WellFormed.placementError?_lay (h : WellFormed d) (ht : d.tag? p = some t)
    (hv : t.isVoid = false) : (d.lay s).placementError? p d.size = none := by
  have hp := lt_size_of_tag ht
  refine placementError?_eq_none.mpr ⟨t, ?_, size_lt_lay d s, hv, ?_, fun hm => ?_⟩
  · rw [tag?_lay_old hp, ht]
  · exact Nat.ne_of_gt (Nat.zero_lt_of_lt hp)
  · exact Nat.lt_irrefl _ (h.lt_of_lay hp hm)

/-- Appended, a laid-out tree is grafted behind the children. -/
theorem WellFormed.appendChild_lay (h : WellFormed d) (ht : d.tag? p = some t)
    (hv : t.isVoid = false) :
    (d.lay s).edit (appendChild p d.size) = (.ok (), d.graftLast p [s]) := by
  rw [edit_appendChild (h.placementError?_lay ht hv), detach_of_top (parent?_lay_size d s),
    link_lay (lt_size_of_tag ht)]
  rfl

/-- A void node does not take a laid-out tree. -/
theorem appendChild_lay_void (ht : d.tag? p = some t) (hv : t.isVoid = true) :
    (d.lay s).edit (appendChild p d.size) = (.error (.notAContainer p), d.lay s) := by
  have hc : (d.lay s).contains d.size = true := contains_iff.mpr (size_lt_lay d s)
  simp [edit, appendChild, ExceptT.run, StateT.run, placementError?,
    tag?_lay_old (lt_size_of_tag ht), ht, hc, hv]

/-- Put in front of a child, a laid-out tree is grafted there. -/
theorem WellFormed.insertBefore_lay (h : WellFormed d) (hr : d.parent? r = some p) :
    (d.lay s).edit (insertBefore p d.size r) =
      (.ok (), d.graft p (insertAhead r d.size) [s]) := by
  have hp := h.parent_lt r p hr
  have hrlt := lt_size_of_parent hr
  have hmem := (h.mem_children p r).mpr hr
  obtain ⟨x, hx⟩ := exists_node hp
  have ht : d.tag? p = some x.tag := by rw [tag?, hx]; rfl
  have hv : x.tag.isVoid = false := by
    by_contra hv
    rw [h.void_empty p x.tag ht (by simpa using hv)] at hmem
    cases hmem
  have hchild : (d.lay s).parent? r = some p := by rw [parent?_lay_old hrlt, hr]
  have hne : ¬ d.size = r := Nat.ne_of_gt hrlt
  have hmem' : r ∈ (d.lay s).children p := by rwa [children_lay_old hp]
  simp only [edit, insertBefore, ExceptT.run, StateT.run, h.placementError?_lay ht hv, hchild,
    ne_eq, not_true, if_false, hne, detach_of_top (parent?_lay_size d s), hmem', if_true,
    link_lay hp]

/-- A laid-out tree is not put in front of what is no child. -/
theorem insertBefore_lay_of_not (hrlt : r < d.size) (hr : d.parent? r ≠ some p) :
    ∃ e, (d.lay s).edit (insertBefore p d.size r) = (.error e, d.lay s) := by
  have hchild : (d.lay s).parent? r ≠ some p := by rwa [parent?_lay_old hrlt]
  simp only [edit, insertBefore, ExceptT.run, StateT.run]
  split
  · exact ⟨_, rfl⟩
  · rw [if_pos hchild]; exact ⟨_, rfl⟩

end FormPage.Document
