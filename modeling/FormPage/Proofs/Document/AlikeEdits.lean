import FormPage.Proofs.Balloon.Parts
import FormPage.Proofs.Document.Readings

/-!
Edits of documents that look alike. The same edit at paired nodes leaves documents that look alike:
under the same pairing where no node is new, and under the pairing that also pairs the new nodes, in
the order of their indices, where a tree was grafted.
-/

namespace FormPage.NodeSpec

open Relation Relator

variable {r : NodeId → NodeId → Prop}

theorem places_rel : ∀ {ss : List NodeSpec} {base base' : Nat},
    (∀ i < (flatAll ss).length, r (base + i) (base' + i)) →
      List.Forall₂ r (places base ss) (places base' ss)
  | [], _, _, _ => .nil
  | s :: rest, base, base', hr => by
    rw [flatAll, List.length_append] at hr
    have hpos := length_flat_pos s
    refine .cons (hr 0 (by omega)) (places_rel fun i hi => ?_)
    rw [Nat.add_assoc, Nat.add_assoc]
    exact hr _ (by omega)

/-- Two nodes that show the same and have paired links. -/
def Paired (r : NodeId → NodeId → Prop) (x x' : Node) : Prop :=
  x.face = x'.face ∧ Option.Rel r x.parent x'.parent ∧ List.Forall₂ r x.children x'.children

mutual

/-- A description laid out at two places gives paired nodes. -/
theorem nodes_rel {parent parent' : Option NodeId} (hp : Option.Rel r parent parent') :
    ∀ {s : NodeSpec} {base base' : Nat}, (∀ i < s.flat.length, r (base + i) (base' + i)) →
      List.Forall₂ (Paired r) (s.nodes parent base) (s.nodes parent' base')
  | { tag, attributes, text, style, geometry, on, children }, base, base', hr => by
    rw [flat, List.length_cons] at hr
    have hbelow : ∀ i < (flatAll children).length, r (base + 1 + i) (base' + 1 + i) :=
      fun i hi => by
        rw [Nat.add_assoc, Nat.add_assoc, Nat.add_comm 1]; exact hr _ (by omega)
    exact .cons ⟨rfl, hp, places_rel hbelow⟩ (nodesAll_rel (hr 0 (by omega)) hbelow)

theorem nodesAll_rel {parent parent' : NodeId} (hp : r parent parent') :
    ∀ {ss : List NodeSpec} {base base' : Nat},
      (∀ i < (flatAll ss).length, r (base + i) (base' + i)) →
        List.Forall₂ (Paired r) (nodesAll parent base ss) (nodesAll parent' base' ss)
  | [], _, _, _ => .nil
  | s :: rest, base, base', hr => by
    rw [flatAll, List.length_append] at hr
    refine List.rel_append (nodes_rel (.some hp) fun i hi => hr i (by omega))
      (nodesAll_rel hp fun i hi => ?_)
    rw [Nat.add_assoc, Nat.add_assoc]
    exact hr _ (by omega)

end

end FormPage.NodeSpec

namespace FormPage.Document

open Relation Relator NodeSpec

variable {d d' : Document} {n n' p p' c c' : NodeId} {w : NodeId → NodeId → Prop}

theorem insertAhead_rel {r : NodeId → NodeId → Prop} (hr : BiUnique r)
    {mark mark' new new' : NodeId} (hmark : r mark mark') (hnew : r new new') {l l' : List NodeId}
    (h : List.Forall₂ r l l') :
    List.Forall₂ r (insertAhead mark new l) (insertAhead mark' new' l') := by
  induction h with
  | nil => exact .cons hnew .nil
  | @cons a b _ _ hab hrest ih =>
    rw [insertAhead, insertAhead]
    by_cases ha : a = mark
    · rw [if_pos ha, if_pos ((eq_iff_of_rel hr hab hmark).mp ha)]
      exact .cons hnew (.cons hab hrest)
    · rw [if_neg ha, if_neg fun hb => ha ((eq_iff_of_rel hr hab hmark).mpr hb)]
      exact .cons hab ih

namespace Alike

variable (h : Alike w d d')
include h

/-- The same change of what paired nodes show. -/
theorem repaint {f f' : Node → Node} (hn : w n n')
    (hparent : ∀ x, (f x).parent = x.parent ∧ (f' x).parent = x.parent)
    (hchildren : ∀ x, (f x).children = x.children ∧ (f' x).children = x.children)
    (hface : ∀ x x' : Node, x.face = x'.face → (f x).face = (f' x').face) :
    Alike w (d.update n f) (d'.update n' f') where
  unique := h.unique
  root := h.root
  body := h.body
  lt_size m m' hm := by rw [size_update]; exact h.lt_size m m' hm
  face m m' hm := by
    have hold := h.face m m' hm
    rw [face?, face?] at hold
    rw [face?, face?, node?_update, node?_update]
    by_cases hnm : n = m
    · rw [if_pos hnm, if_pos ((eq_iff_of_rel h.unique hn hm).mp hnm)]
      cases hx : d.node? m with
      | none =>
        rw [hx] at hold
        rw [Option.map_eq_none_iff.mp hold.symm]; rfl
      | some x =>
        rw [hx] at hold
        obtain ⟨x', hx', hxx⟩ := Option.map_eq_some_iff.mp hold.symm
        rw [hx']
        exact congrArg some (hface x x' hxx.symm)
    · rw [if_neg hnm, if_neg fun hnm' => hnm ((eq_iff_of_rel h.unique hn hm).mpr hnm')]
      exact hold
  parent m m' hm := by
    rw [parent?_update fun x => (hparent x).1, parent?_update fun x => (hparent x).2]
    exact h.parent m m' hm
  children m m' hm := by
    rw [children_update fun x => (hchildren x).1, children_update fun x => (hchildren x).2]
    exact h.children m m' hm

theorem restyle (hn : w n n') (f : Style → Style) :
    Alike w (d.updateStyle n f) (d'.updateStyle n' f) := by
  refine h.repaint hn (fun _ => ⟨rfl, rfl⟩) (fun _ => ⟨rfl, rfl⟩) fun x x' hx => ?_
  obtain ⟨htag, hattributes, htext, hstyle, hgeometry⟩ := Node.eq_of_face hx
  simp [Node.face, htag, hattributes, htext, hstyle, hgeometry]

theorem setAttribute (hn : w n n') (name value : String) :
    Alike w (d.update n fun x => { x with attributes := x.attributes.insert name value })
      (d'.update n' fun x => { x with attributes := x.attributes.insert name value }) := by
  refine h.repaint hn (fun _ => ⟨rfl, rfl⟩) (fun _ => ⟨rfl, rfl⟩) fun x x' hx => ?_
  obtain ⟨htag, hattributes, htext, hstyle, hgeometry⟩ := Node.eq_of_face hx
  simp [Node.face, htag, hattributes, htext, hstyle, hgeometry]

theorem relayout : Alike w d.relayout d'.relayout where
  unique := h.unique
  root := h.root
  body := h.body
  lt_size m m' hm := by rw [size_relayout]; exact h.lt_size m m' hm
  face m m' hm := by rw [face?_relayout, face?_relayout]; exact h.face m m' hm
  parent m m' hm := by rw [parent?_relayout, parent?_relayout]; exact h.parent m m' hm
  children m m' hm := by rw [children_relayout, children_relayout]; exact h.children m m' hm

/-! A tree that is laid out without a place changes no paired node. -/

theorem lay_right (s : NodeSpec) : Alike w d (d'.lay s) where
  unique := h.unique
  root := h.root
  body := h.body
  lt_size := h.lt_size
  face m m' hm := by rw [face?_lay_old (h.lt_size' hm)]; exact h.face m m' hm
  parent m m' hm := by rw [parent?_lay_old (h.lt_size' hm)]; exact h.parent m m' hm
  children m m' hm := by rw [children_lay_old (h.lt_size' hm)]; exact h.children m m' hm

theorem lay_left (s : NodeSpec) : Alike w (d.lay s) d' where
  unique := h.unique
  root := h.root
  body := h.body
  lt_size m m' hm := by
    rw [size_lay]; exact Nat.lt_of_lt_of_le (h.lt_size m m' hm) (Nat.le_add_right _ _)
  face m m' hm := by rw [face?_lay_old (h.lt_size m m' hm)]; exact h.face m m' hm
  parent m m' hm := by rw [parent?_lay_old (h.lt_size m m' hm)]; exact h.parent m m' hm
  children m m' hm := by rw [children_lay_old (h.lt_size m m' hm)]; exact h.children m m' hm

theorem lay (s s' : NodeSpec) : Alike w (d.lay s) (d'.lay s') := (h.lay_left s).lay_right s'

theorem detach (hd : WellFormed d) (hd' : WellFormed d') (hc : w c c') :
    Alike w (d.detach c) (d'.detach c') where
  unique := h.unique
  root := h.root
  body := h.body
  lt_size m m' hm := by rw [size_detach]; exact h.lt_size m m' hm
  face m m' hm := by rw [face?_detach, face?_detach]; exact h.face m m' hm
  parent m m' hm := by
    rw [parent?_detach, parent?_detach]
    by_cases hmc : m = c
    · rw [if_pos hmc, if_pos ((eq_iff_of_rel h.unique hm hc).mp hmc)]; exact .none
    · rw [if_neg hmc, if_neg fun hmc' => hmc ((eq_iff_of_rel h.unique hm hc).mpr hmc')]
      exact h.parent m m' hm
  children m m' hm := by
    rw [hd.children_detach, hd'.children_detach]
    refine List.rel_filter (fun a b hab => ?_) (h.children m m' hm)
    simp [eq_iff_of_rel h.unique hab hc]

end Alike

theorem parent_eq_iff_of_rel (h : Alike w d d') (hc : w c c') (hp : w p p') :
    d.parent? c = some p ↔ d'.parent? c' = some p' := by
  have hrel := h.parent c c' hc
  generalize d.parent? c = s, d'.parent? c' = s' at hrel
  cases hrel with
  | none => simp
  | some hq => simp [eq_iff_of_rel h.unique hq hp]

theorem clear_rel (hp : w p p') : ∀ {ns ns' : List NodeId} {d d' : Document}, Alike w d d' →
    WellFormed d → WellFormed d' → List.Forall₂ w ns ns' →
      Alike w (ns.foldl (Balloon.clearChild p) d) (ns'.foldl (Balloon.clearChild p') d')
  | _, _, _, _, h, _, _, .nil => h
  | c :: ns, c' :: ns', d, d', h, hd, hd', .cons hc hns => by
    rw [List.foldl_cons, List.foldl_cons, Balloon.clearChild_eq, Balloon.clearChild_eq]
    have hiff := parent_eq_iff_of_rel h hc hp
    by_cases hcp : d.parent? c = some p
    · rw [if_pos hcp, if_pos (hiff.mp hcp)]
      exact clear_rel hp (h.detach hd hd' hc) (hd.detach c) (hd'.detach c') hns
    · rw [if_neg hcp, if_neg fun hcp' => hcp (hiff.mpr hcp')]
      exact clear_rel hp h hd hd' hns

theorem Alike.cleared (h : Alike w d d') (hd : WellFormed d) (hd' : WellFormed d') (hp : w p p') :
    Alike w (Balloon.cleared d p) (Balloon.cleared d' p') :=
  clear_rel hp h hd hd' (h.children p p' hp)

/-! ### Grafts -/

/-- A pairing with the next `k` nodes of both documents paired in order. -/
def Grown (w : NodeId → NodeId → Prop) (d d' : Document) (k : Nat) (n n' : NodeId) : Prop :=
  w n n' ∨ ∃ i < k, n = d.size + i ∧ n' = d'.size + i

section Graft

variable {place place' : List NodeId → List NodeId} {k : Nat} {ss : List NodeSpec}

theorem Grown.old (hn : w n n') : Grown w d d' k n n' := .inl hn

theorem Grown.new {i : Nat} (hi : i < k) : Grown w d d' k (d.size + i) (d'.size + i) :=
  .inr ⟨i, hi, rfl, rfl⟩

theorem Alike.unique_grown (h : Alike w d d') (k : Nat) : BiUnique (Grown w d d' k) := by
  constructor
  · rintro a b c (hac | ⟨i, _, rfl, rfl⟩) (hbc | ⟨j, _, rfl, hj⟩)
    · exact h.unique.1 hac hbc
    · subst hj
      exact absurd (h.lt_size' hac) (Nat.not_lt_of_le (Nat.le_add_right _ _))
    · exact absurd (h.lt_size' hbc) (Nat.not_lt_of_le (Nat.le_add_right _ _))
    · rw [Nat.add_left_cancel hj]
  · rintro a b c (hab | ⟨i, _, rfl, rfl⟩) (hac | ⟨j, _, hj, rfl⟩)
    · exact h.unique.2 hab hac
    · subst hj
      exact absurd (h.lt_size _ _ hab) (Nat.not_lt_of_le (Nat.le_add_right _ _))
    · exact absurd (h.lt_size _ _ hac) (Nat.not_lt_of_le (Nat.le_add_right _ _))
    · rw [Nat.add_left_cancel hj]

theorem Alike.graft (h : Alike w d d') (hp : w p p')
    (hplace : List.Forall₂ (Grown w d d' (flatAll ss).length) (place (d.children p))
      (place' (d'.children p'))) :
    Alike (Grown w d d' (flatAll ss).length) (d.graft p place ss) (d'.graft p' place' ss) := by
  have hmono : ∀ {a b}, w a b → Grown w d d' (flatAll ss).length a b := Grown.old
  have hnodes : List.Forall₂ (NodeSpec.Paired (Grown w d d' (flatAll ss).length))
      (nodesAll p d.size ss) (nodesAll p' d'.size ss) :=
    NodeSpec.nodesAll_rel (hmono hp) fun i hi => Grown.new hi
  have hnew := fun i => getElem?_rel hnodes i
  constructor
  case unique => exact h.unique_grown _
  case root => exact hmono h.root
  case body => exact hmono h.body
  case lt_size =>
    rintro n n' (hn | ⟨i, hi, rfl, rfl⟩) <;> rw [size_graft]
    · exact Nat.lt_of_lt_of_le (h.lt_size n n' hn) (Nat.le_add_right _ _)
    · exact Nat.add_lt_add_left hi _
  case face =>
    rintro n n' (hn | ⟨i, hi, rfl, rfl⟩)
    · rw [face?_graft_old (h.lt_size n n' hn), face?_graft_old (h.lt_size' hn)]
      exact h.face n n' hn
    · rw [face?_graft_new, face?_graft_new]
  case parent =>
    rintro n n' (hn | ⟨i, hi, rfl, rfl⟩)
    · rw [parent?_graft_old (h.lt_size n n' hn), parent?_graft_old (h.lt_size' hn)]
      have hold := h.parent n n' hn
      generalize d.parent? n = s, d'.parent? n' = s' at hold
      cases hold with
      | none => exact .none
      | some hq => exact .some (hmono hq)
    · rw [parent?, parent?, node?_graft_new, node?_graft_new]
      have hrel := hnew i
      generalize (nodesAll p d.size ss)[i]? = x, (nodesAll p' d'.size ss)[i]? = x' at hrel
      cases hrel with
      | none => exact .none
      | some hx => exact hx.2.1
  case children =>
    rintro n n' (hn | ⟨i, hi, rfl, rfl⟩)
    · rw [children_graft_old (h.lt_size n n' hn), children_graft_old (h.lt_size' hn)]
      by_cases hnp : n = p
      · rw [if_pos hnp, if_pos ((eq_iff_of_rel h.unique hn hp).mp hnp)]
        exact hplace
      · rw [if_neg hnp, if_neg fun hnp' => hnp ((eq_iff_of_rel h.unique hn hp).mpr hnp')]
        exact (h.children n n' hn).imp fun _ _ => hmono
    · rw [Document.children, Document.children, node?_graft_new, node?_graft_new]
      have hrel := hnew i
      generalize (nodesAll p d.size ss)[i]? = x, (nodesAll p' d'.size ss)[i]? = x' at hrel
      cases hrel with
      | none => exact .nil
      | some hx => exact hx.2.2

theorem Alike.graftLast (h : Alike w d d') (hp : w p p') (ss : List NodeSpec) :
    Alike (Grown w d d' (flatAll ss).length) (d.graftLast p ss) (d'.graftLast p' ss) :=
  h.graft hp (List.rel_append ((h.children p p' hp).imp fun _ _ => Grown.old)
    (NodeSpec.places_rel fun _ hi => Grown.new hi))

/-- One tree in front of paired children. -/
theorem Alike.graftAhead (h : Alike w d d') (hp : w p p') (hc : w c c') (s : NodeSpec) :
    Alike (Grown w d d' (flatAll [s]).length) (d.graft p (insertAhead c d.size) [s])
      (d'.graft p' (insertAhead c' d'.size) [s]) := by
  refine h.graft hp (insertAhead_rel (h.unique_grown _) (Grown.old hc) ?_
    ((h.children p p' hp).imp fun _ _ => Grown.old))
  have hpos : 0 < (flatAll [s]).length := by
    rw [flatAll, List.length_append]
    exact Nat.lt_of_lt_of_le s.length_flat_pos (Nat.le_add_right _ _)
  exact Grown.new (i := 0) hpos

end Graft

end FormPage.Document
