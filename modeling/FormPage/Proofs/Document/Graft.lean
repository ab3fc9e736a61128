import FormPage.PageSpec.Basic
import FormPage.Proofs.Document.Calls

/-!
Growing a document by whole trees. The nodes of a description are laid out in document order behind
the nodes that are there (`nodes`), so that the tree of a description is added in one go: `lay` adds
it without linking it, `graft` below a parent. What is edited into a laid-out tree stays one
(`appendChild_lay`), and what a graft does to each view of the older nodes is said once.
-/

namespace FormPage

/-! ### The nodes of a description -/

namespace NodeSpec

/-- What the node of a description shows. -/
def face (s : NodeSpec) : Node where
  tag := s.tag
  attributes := s.attributes
  text := s.text.getD ""
  style := s.style
  geometry := s.geometry

mutual

/-- A description and all below it, in document order. -/
def flat : NodeSpec → List NodeSpec
  | { tag, attributes, text, style, geometry, on, children } =>
    { tag, attributes, text, style, geometry, on, children } :: flatAll children

/-- Descriptions and all below them, in document order. -/
def flatAll : List NodeSpec → List NodeSpec
  | [] => []
  | s :: rest => s.flat ++ flatAll rest

end

/-- The indices of siblings that are laid out one after the other. -/
def places (base : Nat) : List NodeSpec → List NodeId
  | [] => []
  | s :: rest => base :: places (base + s.flat.length) rest

/-- The topmost node of a description. -/
def node (parent : Option NodeId) (base : Nat) (s : NodeSpec) : Node :=
  { s.face with parent, children := places (base + 1) s.children }

mutual

/-- The nodes of a description, the topmost at the index `base`. -/
def nodes (parent : Option NodeId) (base : Nat) : NodeSpec → List Node
  | { tag, attributes, text, style, geometry, on, children } =>
    node parent base { tag, attributes, text, style, geometry, on, children } ::
      nodesAll base (base + 1) children

/-- The nodes of siblings, the first at the index `base`. -/
def nodesAll (parent : NodeId) (base : Nat) : List NodeSpec → List Node
  | [] => []
  | s :: rest => s.nodes (some parent) base ++ nodesAll parent (base + s.flat.length) rest

end

theorem flat_eq (s : NodeSpec) : s.flat = s :: flatAll s.children := by cases s; rfl

theorem nodes_eq (parent : Option NodeId) (base : Nat) (s : NodeSpec) :
    s.nodes parent base = s.node parent base :: nodesAll base (base + 1) s.children := by
  cases s; rfl

theorem length_flat_pos (s : NodeSpec) : 0 < s.flat.length := by rw [flat_eq]; simp

mutual

/-- The nodes show what the descriptions describe. -/
theorem face_nodes (parent : Option NodeId) (base : Nat) :
    ∀ s : NodeSpec, (s.nodes parent base).map Node.face = s.flat.map face
  | { tag, attributes, text, style, geometry, on, children } => by
    rw [nodes, flat, List.map_cons, List.map_cons, face_nodesAll]; rfl

theorem face_nodesAll (parent : NodeId) (base : Nat) :
    ∀ ss : List NodeSpec, (nodesAll parent base ss).map Node.face = (flatAll ss).map face
  | [] => rfl
  | s :: rest => by
    rw [nodesAll, flatAll, List.map_append, List.map_append, face_nodes, face_nodesAll]

end

theorem length_nodes (parent : Option NodeId) (base : Nat) (s : NodeSpec) :
    (s.nodes parent base).length = s.flat.length := by
  simpa using congrArg List.length (face_nodes parent base s)

theorem length_nodesAll (parent : NodeId) (base : Nat) (ss : List NodeSpec) :
    (nodesAll parent base ss).length = (flatAll ss).length := by
  simpa using congrArg List.length (face_nodesAll parent base ss)

theorem flatAll_append (ss ts : List NodeSpec) : flatAll (ss ++ ts) = flatAll ss ++ flatAll ts := by
  induction ss with
  | nil => rfl
  | cons s rest ih => rw [List.cons_append, flatAll, flatAll, ih, List.append_assoc]

theorem places_append (base : Nat) (ss ts : List NodeSpec) :
    places base (ss ++ ts) = places base ss ++ places (base + (flatAll ss).length) ts := by
  induction ss generalizing base with
  | nil => rfl
  | cons s rest ih =>
    rw [List.cons_append, places, places, ih, flatAll, List.length_append, Nat.add_assoc]; rfl

theorem nodesAll_append (parent : NodeId) (base : Nat) (ss ts : List NodeSpec) :
    nodesAll parent base (ss ++ ts) =
      nodesAll parent base ss ++ nodesAll parent (base + (flatAll ss).length) ts := by
  induction ss generalizing base with
  | nil => rfl
  | cons s rest ih =>
    rw [List.cons_append, nodesAll, nodesAll, ih, flatAll, List.length_append, Nat.add_assoc,
      List.append_assoc]

theorem nodesAll_singleton (parent : NodeId) (base : Nat) (s : NodeSpec) :
    nodesAll parent base [s] = s.nodes (some parent) base := by
  rw [nodesAll, nodesAll, List.append_nil]

theorem mem_places {base n : Nat} : ∀ {ss : List NodeSpec}, n ∈ places base ss →
    base ≤ n ∧ n < base + (flatAll ss).length
  | s :: rest, h => by
    rw [flatAll, List.length_append]
    have hpos := length_flat_pos s
    rcases List.mem_cons.mp h with rfl | h
    · exact ⟨Nat.le_refl _, by omega⟩
    · obtain ⟨hle, hlt⟩ := mem_places h
      exact ⟨by omega, by omega⟩

end NodeSpec

namespace Document

open NodeSpec (nodes nodesAll places flatAll)

variable {d : Document} {n p : NodeId} {xs : List Node}

/-! ### Adding nodes -/

/-- Adds nodes at the next indices. -/
def addNodes (d : Document) (xs : List Node) : Document :=
  { d with nodes := d.nodes ++ xs.toArray }

@[simp] theorem size_addNodes (d : Document) (xs : List Node) :
    (d.addNodes xs).size = d.size + xs.length := by
  simp [addNodes, size]

theorem addNodes_nil (d : Document) : d.addNodes [] = d := by simp [addNodes]

theorem push_eq_addNodes (d : Document) (x : Node) : d.push x = d.addNodes [x] := by
  simp [addNodes, push]

theorem addNodes_addNodes (d : Document) (xs ys : List Node) :
    (d.addNodes xs).addNodes ys = d.addNodes (xs ++ ys) := by
  simp [addNodes]

theorem push_addNodes (d : Document) (xs : List Node) (x : Node) :
    (d.addNodes xs).push x = d.addNodes (xs ++ [x]) := by
  rw [push_eq_addNodes, addNodes_addNodes]

theorem node?_addNodes_old (h : n < d.size) : (d.addNodes xs).node? n = d.node? n :=
  Array.getElem?_append_left h

theorem node?_addNodes_new (d : Document) (xs : List Node) (i : Nat) :
    (d.addNodes xs).node? (d.size + i) = xs[i]? := by
  simp [addNodes, node?, size, Array.getElem?_append_right]

/-- A change of an older node. -/
theorem update_addNodes_old (h : n < d.size) (f : Node → Node) :
    (d.addNodes xs).update n f = (d.update n f).addNodes xs := by
  simp only [update, addNodes, Document.mk.injEq, and_true]
  refine Array.ext_getElem? fun i => ?_
  have h' : n < d.nodes.size := h
  rw [Array.getElem?_modify]
  by_cases hi : i < d.nodes.size
  · rw [Array.getElem?_append_left hi, Array.getElem?_append_left (by simpa using hi),
      Array.getElem?_modify]
  · have hne : n ≠ i := fun h => hi (h ▸ h')
    rw [if_neg hne, Array.getElem?_append_right (Nat.le_of_not_lt hi),
      Array.getElem?_append_right (by simpa using Nat.le_of_not_lt hi), Array.size_modify]

/-- A change of an added node. -/
theorem update_addNodes_new (d : Document) (xs : List Node) (i : Nat) (f : Node → Node) :
    (d.addNodes xs).update (d.size + i) f = d.addNodes (xs.modify i f) := by
  simp only [update, addNodes, Document.mk.injEq, and_true]
  refine Array.ext_getElem? fun k => ?_
  rw [Array.getElem?_modify]
  by_cases hk : k < d.nodes.size
  · have hne : d.size + i ≠ k := by rw [size]; omega
    rw [if_neg hne, Array.getElem?_append_left hk, Array.getElem?_append_left hk]
  · have hk' := Nat.le_of_not_lt hk
    rw [Array.getElem?_append_right hk', Array.getElem?_append_right hk', List.getElem?_toArray,
      List.getElem?_toArray, List.getElem?_modify]
    have hiff : d.size + i = k ↔ i = k - d.nodes.size := by rw [size]; omega
    simp only [hiff]
    split <;> simp

/-! ### Laying out a tree -/

/-- Adds the tree of a description and links it to nothing. -/
def lay (d : Document) (s : NodeSpec) : Document := d.addNodes (s.nodes none d.size)

/-- Adds the trees of descriptions below a parent, whose children become `place` of what they
were. -/
def graft (d : Document) (parent : NodeId) (place : List NodeId → List NodeId)
    (ss : List NodeSpec) : Document :=
  (d.update parent fun x => { x with children := place x.children }).addNodes
    (nodesAll parent d.size ss)

/-- Adds the trees of descriptions behind the children of a parent. -/
def graftLast (d : Document) (parent : NodeId) (ss : List NodeSpec) : Document :=
  d.graft parent (· ++ places d.size ss) ss

@[simp] theorem size_lay (d : Document) (s : NodeSpec) :
    (d.lay s).size = d.size + s.flat.length := by
  rw [lay, size_addNodes, NodeSpec.length_nodes]

@[simp] theorem size_graft (d : Document) (p : NodeId) (place : List NodeId → List NodeId)
    (ss : List NodeSpec) : (d.graft p place ss).size = d.size + (flatAll ss).length := by
  rw [graft, size_addNodes, size_update, NodeSpec.length_nodesAll]

theorem lay_addNodes (d : Document) (xs : List Node) (s : NodeSpec) :
    (d.addNodes xs).lay s = d.addNodes (xs ++ s.nodes none (d.size + xs.length)) := by
  rw [lay, addNodes_addNodes, size_addNodes]

/-- A tree of one node is laid out as a new node. -/
theorem lay_of_leaf (d : Document) {s : NodeSpec} (h : s.children = []) :
    d.lay s = d.push s.face := by
  rw [lay, NodeSpec.nodes_eq, NodeSpec.node, h]
  simp only [addNodes, push, Array.push_eq_append]
  rfl

/-- Linking a laid-out tree grafts it. -/
theorem link_lay (hp : p < d.size) (s : NodeSpec) (place : List NodeId → List NodeId) :
    (d.lay s).link p d.size place = d.graft p place [s] := by
  have hnew := update_addNodes_new d (s.nodes none d.size) 0 fun x => { x with parent := some p }
  rw [Nat.add_zero] at hnew
  rw [link, lay, hnew, update_addNodes_old hp, graft, NodeSpec.nodesAll_singleton,
    NodeSpec.nodes_eq, NodeSpec.nodes_eq]
  rfl

/-! ### What a graft does to each view -/

section Views

variable {place : List NodeId → List NodeId} {s : NodeSpec} {ss : List NodeSpec}

theorem old_or_new (d : Document) (n : NodeId) : n < d.size ∨ ∃ i, n = d.size + i := by
  rcases Nat.lt_or_ge n d.size with h | h
  · exact .inl h
  · exact .inr (Nat.exists_eq_add_of_le h)

theorem node?_graft_old (h : n < d.size) : (d.graft p place ss).node? n =
    (d.update p fun x => { x with children := place x.children }).node? n := by
  rw [graft, node?_addNodes_old (by rwa [size_update])]

theorem node?_graft_new (d : Document) (p : NodeId) (place : List NodeId → List NodeId)
    (ss : List NodeSpec) (i : Nat) :
    (d.graft p place ss).node? (d.size + i) = (nodesAll p d.size ss)[i]? := by
  have h := node?_addNodes_new (d.update p fun x => { x with children := place x.children })
    (nodesAll p d.size ss) i
  rwa [size_update] at h

theorem face?_graft_old (h : n < d.size) : (d.graft p place ss).face? n = d.face? n := by
  rw [face?, node?_graft_old h]
  exact face?_update fun _ => rfl

theorem tag?_graft_old (h : n < d.size) : (d.graft p place ss).tag? n = d.tag? n := by
  rw [tag?_eq_face, tag?_eq_face, face?_graft_old h]

theorem parent?_graft_old (h : n < d.size) : (d.graft p place ss).parent? n = d.parent? n := by
  rw [parent?, node?_graft_old h]
  exact parent?_update fun _ => rfl

theorem offsetLink?_graft_old (h : n < d.size) :
    (d.graft p place ss).offsetLink? n = d.offsetLink? n := by
  rw [offsetLink?, node?_graft_old h]
  exact offsetLink?_update fun _ => rfl

theorem children_graft_old (h : n < d.size) : (d.graft p place ss).children n =
    if n = p then place (d.children p) else d.children n := by
  rw [children, node?_graft_old h, node?_update]
  by_cases hn : p = n
  · subst hn
    obtain ⟨x, hx⟩ := exists_node h
    rw [if_pos rfl, if_pos rfl, children_of_node hx, hx]; rfl
  · rw [if_neg hn, if_neg (Ne.symm hn)]; rfl

theorem children_graftLast (h : p < d.size) (ss : List NodeSpec) :
    (d.graftLast p ss).children p = d.children p ++ places d.size ss := by
  rw [graftLast, children_graft_old h, if_pos rfl]

theorem face?_graft_new (d : Document) (p : NodeId) (place : List NodeId → List NodeId)
    (ss : List NodeSpec) (i : Nat) :
    (d.graft p place ss).face? (d.size + i) = (flatAll ss)[i]?.map NodeSpec.face := by
  rw [face?, node?_graft_new, ← List.getElem?_map, NodeSpec.face_nodesAll, List.getElem?_map]

/-- The first new node shows what the first description describes. -/
theorem face?_graft_first (d : Document) (p : NodeId) (place : List NodeId → List NodeId)
    (s : NodeSpec) (ss : List NodeSpec) :
    (d.graft p place (s :: ss)).face? d.size = some s.face := by
  have hface := face?_graft_new d p place (s :: ss) 0
  rwa [Nat.add_zero, flatAll, NodeSpec.flat_eq] at hface

theorem node?_lay_old (h : n < d.size) : (d.lay s).node? n = d.node? n := node?_addNodes_old h

theorem face?_lay_old (h : n < d.size) : (d.lay s).face? n = d.face? n := by
  rw [face?, node?_lay_old h, face?]

theorem parent?_lay_old (h : n < d.size) : (d.lay s).parent? n = d.parent? n := by
  rw [parent?, node?_lay_old h, parent?]

theorem children_lay_old (h : n < d.size) : (d.lay s).children n = d.children n := by
  rw [children, node?_lay_old h, children]

theorem offsetLink?_lay_old (h : n < d.size) : (d.lay s).offsetLink? n = d.offsetLink? n := by
  rw [offsetLink?, node?_lay_old h, offsetLink?]

end Views

end Document

namespace NodeSpec

mutual

/-- A laid-out node is linked to the parent of all, or to another laid-out node. -/
theorem links_of_mem_nodes {parent : Option NodeId} {base : Nat} {x : Node} :
    ∀ {s : NodeSpec}, x ∈ s.nodes parent base →
      (x.parent = parent ∨ ∃ q : Nat, x.parent = some q ∧ base ≤ q) ∧
        (∀ c : Nat, c ∈ x.children → base < c) ∧ x.offsetParent = none
  | { tag, attributes, text, style, geometry, on, children }, h => by
    rcases List.mem_cons.mp h with rfl | h
    · exact ⟨.inl rfl, fun c hc => (mem_places hc).1, rfl⟩
    · obtain ⟨hparent, hchildren, hlink⟩ := links_of_mem_nodesAll h
      refine ⟨.inr ?_, fun c hc => Nat.lt_of_succ_lt (hchildren c hc), hlink⟩
      rcases hparent with hq | ⟨q, hq, hle⟩
      · exact ⟨base, hq, Nat.le_refl _⟩
      · exact ⟨q, hq, Nat.le_of_succ_le hle⟩

theorem links_of_mem_nodesAll {parent : NodeId} {base : Nat} {x : Node} :
    ∀ {ss : List NodeSpec}, x ∈ nodesAll parent base ss →
      (x.parent = some parent ∨ ∃ q : Nat, x.parent = some q ∧ base ≤ q) ∧
        (∀ c : Nat, c ∈ x.children → base < c) ∧ x.offsetParent = none
  | s :: rest, h => by
    rcases List.mem_append.mp h with h | h
    · exact links_of_mem_nodes h
    · obtain ⟨hparent, hchildren, hlink⟩ := links_of_mem_nodesAll h
      refine ⟨?_, fun c hc => Nat.lt_of_le_of_lt (Nat.le_add_right _ _) (hchildren c hc), hlink⟩
      rcases hparent with hq | ⟨q, hq, hle⟩
      · exact .inl hq
      · exact .inr ⟨q, hq, Nat.le_trans (Nat.le_add_right _ _) hle⟩

end

end NodeSpec

namespace Document

open NodeSpec (nodes nodesAll places flatAll)

variable {d : Document} {n p : NodeId} {place : List NodeId → List NodeId} {s : NodeSpec}
  {ss : List NodeSpec}

/-- What a laid-out node hangs below is laid out as well. -/
theorem parent?_lay_new (h : d.size ≤ n) {q : NodeId} (hq : (d.lay s).parent? n = some q) :
    d.size ≤ q := by
  obtain ⟨i, rfl⟩ := Nat.exists_eq_add_of_le h
  rw [parent?, lay, node?_addNodes_new] at hq
  obtain ⟨x, hx, hxq⟩ := Option.bind_eq_some_iff.mp hq
  rcases (NodeSpec.links_of_mem_nodes (List.mem_of_getElem? hx)).1 with h | ⟨r, h, hle⟩
  · rw [h] at hxq; cases hxq
  · exact Option.some.inj (hxq.symm.trans h) ▸ hle

/-- What is laid out has no links of the layout yet. -/
theorem offsetLink?_lay_new (h : d.size ≤ n) : (d.lay s).offsetLink? n = none := by
  obtain ⟨i, rfl⟩ := Nat.exists_eq_add_of_le h
  rw [offsetLink?, lay, node?_addNodes_new, Option.bind_eq_none_iff]
  intro x hx
  exact (NodeSpec.links_of_mem_nodes (List.mem_of_getElem? hx)).2.2

theorem offsetLink?_graft_new (h : d.size ≤ n) : (d.graft p place ss).offsetLink? n = none := by
  obtain ⟨i, rfl⟩ := Nat.exists_eq_add_of_le h
  rw [offsetLink?, node?_graft_new, Option.bind_eq_none_iff]
  intro x hx
  exact (NodeSpec.links_of_mem_nodesAll (List.mem_of_getElem? hx)).2.2

/-! ### Laid-out trees -/

theorem node?_graft_other (h : n < d.size) (hne : n ≠ p) :
    (d.graft p place ss).node? n = d.node? n := by
  rw [node?_graft_old h, node?_update, if_neg (Ne.symm hne)]

/-- The tree of a description stands below a parent, its topmost node at an index. -/
def Holds (d : Document) (parent base : NodeId) (s : NodeSpec) : Prop :=
  ∀ (i : Nat) (x : Node), (s.nodes (some parent) base)[i]? = some x → d.node? (base + i) = some x

theorem holds_graft (d : Document) (p : NodeId) (place : List NodeId → List NodeId)
    (s : NodeSpec) : (d.graft p place [s]).Holds p d.size s := by
  intro i x hx
  rw [node?_graft_new, NodeSpec.nodesAll_singleton, hx]

theorem Holds.of_kept {d' : Document} {base : Nat} (h : d.Holds p base s)
    (hkept : ∀ n, base ≤ n → n < d.size → d'.node? n = d.node? n) : d'.Holds p base s := by
  intro i x hx
  have hnode := h i x hx
  rw [hkept _ (Nat.le_add_right base i) (lt_size_of_node hnode), hnode]

end Document

end FormPage
