import FormPage.Document.Layout
import Mathlib.Tactic.ByContra

/-!
What each writer of a document does to each view of it. A node is seen through five views: its face
(everything but its links), its parent, its children, the link to its positioned ancestor, and
whether it exists at all. A writer of the tree is described by the one or two views that it changes,
so that no proof about trees has to look into the array of nodes.
-/

namespace FormPage

/-- A node without its links: what it is and what it shows. -/
def Node.face (x : Node) : Node := { x with parent := none, children := [], offsetParent := none }

theorem Node.eq_of_face {x y : Node} (h : x.face = y.face) :
    x.tag = y.tag ∧ x.attributes = y.attributes ∧ x.text = y.text ∧ x.style = y.style ∧
      x.geometry = y.geometry := by
  cases x; cases y
  simpa [face] using h

namespace Document

variable {d : Document} {n m p c : NodeId} {f : Node → Node}

/-- The face of a node. -/
def face? (d : Document) (n : NodeId) : Option Node := (d.node? n).map Node.face

/-! ### Views of a face -/

theorem tag?_eq_face (d : Document) (n : NodeId) : d.tag? n = (d.face? n).map (·.tag) := by
  simp [tag?, face?, Function.comp_def, Node.face]

theorem attribute?_eq_face (d : Document) (n : NodeId) (name : String) :
    d.attribute? n name = (d.face? n).bind fun x => x.attributes.get? name := by
  rw [attribute?, face?]; cases d.node? n <;> rfl

theorem geometry?_eq_face (d : Document) (n : NodeId) :
    d.geometry? n = (d.face? n).bind (·.geometry) := by
  rw [face?, geometry?]; cases d.node? n <;> rfl

theorem text_eq_face (d : Document) (n : NodeId) :
    d.text n = ((d.face? n).map (·.text)).getD "" := by
  rw [Document.text, face?]; cases d.node? n <;> rfl

theorem style?_eq_face (d : Document) (n : NodeId) : d.style? n = (d.face? n).map (·.style) := by
  rw [style?, face?]; cases d.node? n <;> rfl

theorem contains_iff : d.contains n = true ↔ n < d.size := by simp [contains]

theorem contains_eq_face (d : Document) (n : NodeId) : d.contains n = (d.face? n).isSome := by
  rw [← node?_isSome]; simp [face?]

theorem node?_eq_none_iff : d.node? n = none ↔ d.size ≤ n := by
  simp [node?, size]

theorem exists_node (h : n < d.size) : ∃ x, d.node? n = some x :=
  ⟨d.nodes[n], Array.getElem?_eq_getElem h⟩

theorem lt_size_of_node {x : Node} (h : d.node? n = some x) : n < d.size := by
  by_contra hn
  rw [node?_eq_none_iff.mpr (Nat.le_of_not_lt hn)] at h
  cases h

theorem lt_size_of_tag {t : Tag} (h : d.tag? n = some t) : n < d.size := by
  obtain ⟨x, hx, -⟩ := Option.map_eq_some_iff.mp h
  exact lt_size_of_node hx

theorem lt_size_of_parent (h : d.parent? c = some p) : c < d.size := by
  obtain ⟨x, hx, -⟩ := Option.bind_eq_some_iff.mp h
  exact lt_size_of_node hx

theorem lt_size_of_child (h : c ∈ d.children p) : p < d.size := by
  by_contra hn
  rw [children, node?_eq_none_iff.mpr (Nat.le_of_not_lt hn)] at h
  cases h

theorem parent?_of_node {x : Node} (h : d.node? n = some x) : d.parent? n = x.parent := by
  simp [parent?, h]

theorem children_of_node {x : Node} (h : d.node? n = some x) : d.children n = x.children := by
  simp [children, h]

theorem offsetLink?_of_node {x : Node} (h : d.node? n = some x) :
    d.offsetLink? n = x.offsetParent := by
  simp [offsetLink?, h]

theorem face?_of_node {x : Node} (h : d.node? n = some x) : d.face? n = some x.face := by
  simp [face?, h]

/-! ### Changing one node -/

theorem update_update (d : Document) (n : NodeId) (f g : Node → Node) :
    (d.update n f).update n g = d.update n (g ∘ f) := by
  simp only [update, Document.mk.injEq, and_true]
  refine Array.ext_getElem? fun i => ?_
  rw [Array.getElem?_modify, Array.getElem?_modify, Array.getElem?_modify]
  split <;> simp

/-- A view that a change of a node keeps is kept by the update. -/
theorem map_node?_update {α : Type} (g : Node → α) (h : ∀ x, g (f x) = g x) :
    ((d.update n f).node? m).map g = (d.node? m).map g := by
  rw [node?_update]
  split
  · cases d.node? m <;> simp [h]
  · rfl

theorem bind_node?_update {α : Type} (g : Node → Option α) (h : ∀ x, g (f x) = g x) :
    ((d.update n f).node? m).bind g = (d.node? m).bind g := by
  rw [node?_update]
  split
  · cases d.node? m <;> simp [h]
  · rfl

theorem face?_update (h : ∀ x, (f x).face = x.face) : (d.update n f).face? m = d.face? m :=
  map_node?_update Node.face h

theorem tag?_update (h : ∀ x, (f x).tag = x.tag) : (d.update n f).tag? m = d.tag? m :=
  map_node?_update (·.tag) h

theorem text_update (h : ∀ x, (f x).text = x.text) : (d.update n f).text m = d.text m := by
  rw [Document.text, Document.text, map_node?_update (·.text) h]

theorem style?_update (h : ∀ x, (f x).style = x.style) : (d.update n f).style? m = d.style? m :=
  map_node?_update (·.style) h

theorem parent?_update (h : ∀ x, (f x).parent = x.parent) :
    (d.update n f).parent? m = d.parent? m := by
  rw [parent?, parent?, bind_node?_update (·.parent) h]

theorem children_update (h : ∀ x, (f x).children = x.children) :
    (d.update n f).children m = d.children m := by
  rw [children, children, map_node?_update (·.children) h]

theorem offsetLink?_update (h : ∀ x, (f x).offsetParent = x.offsetParent) :
    (d.update n f).offsetLink? m = d.offsetLink? m := by
  rw [offsetLink?, offsetLink?, bind_node?_update (·.offsetParent) h]

/-! ### Adding a node -/

theorem lt_size_push {x : Node} (h : n < d.size) : n < (d.push x).size := by
  rw [size_push]; exact Nat.lt_succ_of_lt h

theorem push_ne (d : Document) (x : Node) : d.push x ≠ d := fun h =>
  Nat.succ_ne_self d.size ((size_push d x).symm.trans (congrArg size h))

theorem face?_push (d : Document) (x : Node) (m : NodeId) :
    (d.push x).face? m = if m = d.size then some x.face else d.face? m := by
  rw [face?, node?_push]; split <;> rfl

theorem parent?_push (d : Document) (x : Node) (m : NodeId) :
    (d.push x).parent? m = if m = d.size then x.parent else d.parent? m := by
  rw [parent?, node?_push]; split <;> rfl

theorem children_push (d : Document) (x : Node) (m : NodeId) :
    (d.push x).children m = if m = d.size then x.children else d.children m := by
  rw [children, node?_push]; split <;> rfl

theorem offsetLink?_push (d : Document) (x : Node) (m : NodeId) :
    (d.push x).offsetLink? m = if m = d.size then x.offsetParent else d.offsetLink? m := by
  rw [offsetLink?, node?_push]; split <;> rfl

/-! ### Taking a node out of its parent -/

@[simp] theorem size_detach (d : Document) (c : NodeId) : (d.detach c).size = d.size := by
  rw [detach]; split <;> simp

theorem face?_detach (d : Document) (c m : NodeId) : (d.detach c).face? m = d.face? m := by
  rw [detach]
  split
  · rfl
  · rw [face?_update, face?_update] <;> exact fun _ => rfl

theorem offsetLink?_detach (d : Document) (c m : NodeId) :
    (d.detach c).offsetLink? m = d.offsetLink? m := by
  rw [detach]
  split
  · rfl
  · rw [offsetLink?_update, offsetLink?_update] <;> exact fun _ => rfl

theorem parent?_detach (d : Document) (c m : NodeId) :
    (d.detach c).parent? m = if m = c then none else d.parent? m := by
  cases h : d.parent? c with
  | none =>
    rw [detach, h]
    by_cases hm : m = c
    · rw [if_pos hm, hm]; exact h
    · rw [if_neg hm]
  | some p =>
    rw [detach, h]
    refine (parent?_update (n := p) ?_).trans ?_
    · exact fun _ => rfl
    rw [parent?, node?_update]
    by_cases hm : m = c
    · subst hm
      rw [if_pos rfl, if_pos rfl]
      cases d.node? m <;> rfl
    · rw [if_neg (Ne.symm hm), if_neg hm]; rfl

theorem children_detach (d : Document) (c m : NodeId) :
    (d.detach c).children m =
      if d.parent? c = some m then (d.children m).filter (· ≠ c) else d.children m := by
  cases h : d.parent? c with
  | none => rw [detach, h]; rfl
  | some p =>
    rw [detach, h]
    simp only [Option.some.injEq]
    rw [children, node?_update]
    by_cases hm : p = m
    · subst hm
      rw [if_pos rfl, if_pos rfl, ← children_update (n := c) (d := d) (m := p)
        (f := fun node => { node with parent := none }) (fun _ => rfl), children]
      cases (d.update c fun node => { node with parent := none }).node? p <;> rfl
    · rw [if_neg hm, if_neg hm]
      exact children_update (fun _ => rfl)

/-! ### Linking a node to a parent -/

variable {place : List NodeId → List NodeId}

@[simp] theorem size_link (d : Document) (p c : NodeId) (place : List NodeId → List NodeId) :
    (d.link p c place).size = d.size := by
  simp [link]

theorem face?_link (d : Document) (p c m : NodeId) (place : List NodeId → List NodeId) :
    (d.link p c place).face? m = d.face? m := by
  rw [link, face?_update, face?_update] <;> exact fun _ => rfl

theorem offsetLink?_link (d : Document) (p c m : NodeId) (place : List NodeId → List NodeId) :
    (d.link p c place).offsetLink? m = d.offsetLink? m := by
  rw [link, offsetLink?_update, offsetLink?_update] <;> exact fun _ => rfl

theorem parent?_link (hc : c < d.size) :
    (d.link p c place).parent? m = if m = c then some p else d.parent? m := by
  refine (parent?_update (n := p) ?_).trans ?_
  · exact fun _ => rfl
  rw [parent?, node?_update]
  by_cases hm : m = c
  · subst hm
    obtain ⟨x, hx⟩ := exists_node hc
    rw [if_pos rfl, if_pos rfl, hx]; rfl
  · rw [if_neg (Ne.symm hm), if_neg hm]; rfl

theorem children_link (hp : p < d.size) :
    (d.link p c place).children m = if m = p then place (d.children p) else d.children m := by
  have hkeep : ∀ k, (d.update c fun node => { node with parent := some p }).children k =
      d.children k := fun k => children_update (fun _ => rfl)
  rw [link, children, node?_update]
  by_cases hm : p = m
  · subst hm
    obtain ⟨x, hx⟩ := exists_node (d := d.update c fun node => { node with parent := some p })
      (n := p) (by simpa using hp)
    rw [if_pos rfl, if_pos rfl, hx, ← hkeep p, children_of_node hx]; rfl
  · rw [if_neg hm, if_neg (Ne.symm hm), ← hkeep m]; rfl

/-! ### The links to positioned ancestors -/

theorem node?_relayout (d : Document) (n : NodeId) :
    d.relayout.node? n = (d.node? n).map fun x => { x with offsetParent := d.layoutParent? n } := by
  simp [relayout, node?]

@[simp] theorem size_relayout (d : Document) : d.relayout.size = d.size := by
  simp [relayout, size]

@[simp] theorem face?_relayout (d : Document) (n : NodeId) : d.relayout.face? n = d.face? n := by
  rw [face?, face?, node?_relayout, Option.map_map]; rfl

@[simp] theorem parent?_relayout (d : Document) (n : NodeId) :
    d.relayout.parent? n = d.parent? n := by
  rw [parent?, parent?, node?_relayout]; cases d.node? n <;> rfl

@[simp] theorem children_relayout (d : Document) (n : NodeId) :
    d.relayout.children n = d.children n := by
  rw [children, children, node?_relayout]; cases d.node? n <;> rfl

theorem layoutParent?_of_size_le (h : d.size ≤ n) : d.layoutParent? n = none := by
  rw [layoutParent?, node?_eq_none_iff.mpr h]

theorem offsetLink?_relayout (d : Document) (n : NodeId) :
    d.relayout.offsetLink? n = d.layoutParent? n := by
  rw [offsetLink?, node?_relayout]
  by_cases h : n < d.size
  · obtain ⟨x, hx⟩ := exists_node h
    rw [hx]; rfl
  · have h' := Nat.le_of_not_lt h
    rw [node?_eq_none_iff.mpr h', layoutParent?_of_size_le h']; rfl

theorem offsetLink?_setLink (hn : n < d.size) (a : Option NodeId) :
    (d.update n fun x => { x with offsetParent := a }).offsetLink? m =
      if m = n then a else d.offsetLink? m := by
  rw [offsetLink?, node?_update]
  by_cases hm : n = m
  · subst hm
    obtain ⟨x, hx⟩ := exists_node hn
    rw [if_pos rfl, if_pos rfl, hx]; rfl
  · rw [if_neg hm, if_neg (Ne.symm hm)]; rfl

end Document

end FormPage
