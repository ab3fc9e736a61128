import FormPage.PageSpec.Snapshot
import FormPage.Proofs.Document.Position
import FormPage.Proofs.Document.Readings
import FormPage.Proofs.Page.Handlers
import FormPage.Proofs.PageSpec.Normal

/-!
Snapshots. The description of a node is that of its face, its handlers and its children; it is in
normal form and can be built. Two pages with the same description below the root show the same tree
under the pairing by position, and pages that show the same tree have the same description.
-/

namespace FormPage.Page

open Document NodeSpec Relation Relator

variable {p q : Page} {n n' : NodeId} {w : NodeId → NodeId → Prop}

theorem snapshotBelow_of_node (h : WellFormed p.document) {x : Node}
    (hx : p.document.node? n = some x) : p.snapshotBelow n =
      p.nodeSpec n x ((p.document.children n).map p.snapshotBelow) :=
  h.fold_of_node hx p.nodeSpec default

theorem isNormal_nodeSpec (p : Page) (n : NodeId) (x : Node) (children : List NodeSpec) :
    (p.nodeSpec n x children).IsNormal := by
  rw [IsNormal]
  by_cases ht : x.tag = .text
  · simp [nodeSpec, ht]
  · simp [nodeSpec, ht]

theorem mem_flatAll_map {α : Type} {f : α → NodeSpec} {t : NodeSpec} :
    ∀ {l : List α}, t ∈ flatAll (l.map f) → ∃ a ∈ l, t ∈ (f a).flat
  | a :: l, h => by
    rw [List.map_cons, mem_flatAll_cons] at h
    rcases h with h | h
    · exact ⟨a, List.mem_cons_self, h⟩
    · obtain ⟨b, hb, ht⟩ := mem_flatAll_map h
      exact ⟨b, List.mem_cons_of_mem _ hb, ht⟩

/-- Every node of a description is in normal form and can be built. -/
theorem sound_snapshotBelow (h : WellFormed p.document) (hn : n < p.document.size) :
    ∀ t ∈ (p.snapshotBelow n).flat, t.IsNormal ∧ t.Holds := by
  induction n using h.below_induction with
  | hP n ih =>
    intro t ht
    obtain ⟨x, hx⟩ := exists_node hn
    rw [snapshotBelow_of_node h hx, mem_flat] at ht
    rcases ht with rfl | ht
    · refine ⟨isNormal_nodeSpec p n x _, fun htag => ?_, fun hv => ?_⟩
      · have htag : x.tag = .input := htag
        simp [nodeSpec, htag]
      · have htag : p.document.tag? n = some x.tag := by rw [tag?, hx]; rfl
        simp [nodeSpec, h.void_empty n x.tag htag hv]
    · obtain ⟨c, hc, ht⟩ := mem_flatAll_map ht
      exact ih c hc (h.child_lt n c hc) t ht

theorem sound_snapshot (h : WellFormed p.document) :
    ∀ t ∈ flatAll p.snapshot.body, t.IsNormal ∧ t.Holds := by
  intro t ht
  obtain ⟨c, hc, ht⟩ := mem_flatAll_map ht
  exact sound_snapshotBelow h (h.child_lt body c hc) t ht

/-! ### The same description -/

/-- The face of a node in terms of its description. -/
theorem face_nodeSpec (h : WellFormed p.document) (hbare : ElementsBare p.document) {x : Node}
    (hx : p.document.node? n = some x) (children : List NodeSpec) :
    (p.nodeSpec n x children).face = x.face := by
  have hface := face?_of_node hx
  rw [nodeSpec, NodeSpec.face, Node.face]
  by_cases ht : x.tag = .text
  · have hattributes : x.attributes = ∅ := h.text_bare n x.face hface ht
    simp [ht, hattributes]
  · have htext : x.text = "" := hbare n x.face hface ht
    simp [ht, htext]

/-- Nodes with the same description show the same. -/
theorem of_snapshotBelow_eq (hp : WellFormed p.document) (hq : WellFormed q.document)
    (hpb : ElementsBare p.document) (hqb : ElementsBare q.document) (hn : n < p.document.size)
    (hn' : n' < q.document.size) (h : p.snapshotBelow n = q.snapshotBelow n') :
    p.document.face? n = q.document.face? n' ∧ p.bindings.ofNode n = q.bindings.ofNode n' ∧
      (p.document.children n).map p.snapshotBelow =
        (q.document.children n').map q.snapshotBelow := by
  obtain ⟨x, hx⟩ := exists_node hn
  obtain ⟨y, hy⟩ := exists_node hn'
  rw [snapshotBelow_of_node hp hx, snapshotBelow_of_node hq hy] at h
  refine ⟨?_, ?_, congrArg NodeSpec.children h⟩
  · rw [face?_of_node hx, face?_of_node hy, ← face_nodeSpec hp hpb hx
      ((p.document.children n).map p.snapshotBelow), h, face_nodeSpec hq hqb hy]
  · have hon : OrderedMap.ofList (p.bindings.ofNode n) =
        OrderedMap.ofList (q.bindings.ofNode n') := congrArg NodeSpec.on h
    rw [← OrderedMap.entries_ofList (p.bindings.nodup_ofNode n), hon,
      OrderedMap.entries_ofList (q.bindings.nodup_ofNode n')]

theorem nodeSpec_congr {x y : Node} (hface : x.face = y.face)
    (hon : p.bindings.ofNode n = q.bindings.ofNode n') (children : List NodeSpec) :
    p.nodeSpec n x children = q.nodeSpec n' y children := by
  obtain ⟨htag, hattributes, htext, hstyle, hgeometry⟩ := Node.eq_of_face hface
  rw [nodeSpec, nodeSpec, htag, hattributes, htext, hstyle, hgeometry, hon]

/-! ### Pages that show the same tree -/

/-- Pages that show the same tree with the same handlers have the same description. -/
theorem snapshotBelow_eq_of_alike (h : Alike w p.document q.document)
    (hp : WellFormed p.document) (hq : WellFormed q.document)
    (hon : ∀ n n', w n n' → p.bindings.ofNode n = q.bindings.ofNode n') (hn : w n n') :
    p.snapshotBelow n = q.snapshotBelow n' :=
  h.fold hp hq (fun n n' _ _ l hw hface => nodeSpec_congr hface (hon n n' hw) l) hn

theorem snapshot_body_eq_of_alike (h : Alike w p.document q.document)
    (hp : WellFormed p.document) (hq : WellFormed q.document)
    (hon : ∀ n n', w n n' → p.bindings.ofNode n = q.bindings.ofNode n') :
    p.snapshot.body = q.snapshot.body :=
  map_eq_of_rel (h.children body body h.body) fun _ _ _ hc =>
    snapshotBelow_eq_of_alike h hp hq hon hc

end FormPage.Page

namespace FormPage

open Document NodeSpec Relation Relator

/-- A document as building leaves it and as every action keeps it: the root holds the body alone,
and neither of them shows anything by itself. -/
structure Document.Framed (d : Document) : Prop where
  wellFormed : WellFormed d
  bare : ElementsBare d
  root_face : d.face? root = some { tag := .html }
  body_face : d.face? body = some { tag := .body }
  children_root : d.children root = [body]
  reports : d.reportsOffsets = true

theorem Document.Framed.lt_size {d : Document} {n : NodeId} (h : d.Framed)
    (hn : d.AtOrAbove root n) : n < d.size := by
  rcases hn.cases_head with rfl | ⟨b, hb, -⟩
  · rw [← contains_iff, contains_eq_face, h.root_face]; rfl
  · exact lt_size_of_parent hb

namespace Page

variable {p q : Page} {n n' : NodeId}

theorem snapshotBelow_root_eq (hp : p.document.Framed) (hq : q.document.Framed)
    (hroot : p.bindings.ofNode root = q.bindings.ofNode root)
    (hbody : p.bindings.ofNode body = q.bindings.ofNode body)
    (h : p.snapshot.body = q.snapshot.body) : p.snapshotBelow root = q.snapshotBelow root := by
  have hfaces : ∀ m, p.document.face? m = q.document.face? m → (p.document.face? m).isSome →
      ∃ x y, p.document.node? m = some x ∧ q.document.node? m = some y ∧ x.face = y.face := by
    intro m hm hsome
    obtain ⟨f, hf⟩ := Option.isSome_iff_exists.mp hsome
    obtain ⟨x, hx, hxf⟩ := Option.map_eq_some_iff.mp hf
    obtain ⟨y, hy, hyf⟩ := Option.map_eq_some_iff.mp (hm ▸ hf)
    exact ⟨x, y, hx, hy, hxf.trans hyf.symm⟩
  obtain ⟨xb, yb, hxb, hyb, hb⟩ := hfaces body (hp.body_face.trans hq.body_face.symm)
    (by rw [hp.body_face]; rfl)
  obtain ⟨xr, yr, hxr, hyr, hr⟩ := hfaces root (hp.root_face.trans hq.root_face.symm)
    (by rw [hp.root_face]; rfl)
  have hbelow : p.snapshotBelow body = q.snapshotBelow body := by
    rw [snapshotBelow_of_node hp.wellFormed hxb, snapshotBelow_of_node hq.wellFormed hyb,
      nodeSpec_congr hb hbody]
    exact congrArg _ h
  rw [snapshotBelow_of_node hp.wellFormed hxr, snapshotBelow_of_node hq.wellFormed hyr,
    nodeSpec_congr hr hroot, hp.children_root, hq.children_root, List.map_singleton,
    List.map_singleton, hbelow]

section SameSnapshot

variable (hp : p.document.Framed) (hq : q.document.Framed)
  (hroot : p.bindings.ofNode root = q.bindings.ofNode root)
  (hbody : p.bindings.ofNode body = q.bindings.ofNode body)
  (h : p.snapshot.body = q.snapshot.body)
include hp hq hroot hbody h

/-- Nodes at the same position have the same description. -/
theorem snapshotBelow_eq_of_samePlace (hn : SamePlace p.document q.document n n') :
    p.snapshotBelow n = q.snapshotBelow n' := by
  obtain ⟨path, hpath, hpath'⟩ := hn
  induction path using List.reverseRecOn generalizing n n' with
  | nil => cases hpath; cases hpath'; exact snapshotBelow_root_eq hp hq hroot hbody h
  | append_singleton path i ih =>
    rw [nodeAt?, below?_concat, Option.bind_eq_some_iff] at hpath hpath'
    obtain ⟨m, hm, hn⟩ := hpath
    obtain ⟨m', hm', hn'⟩ := hpath'
    have hlt := hp.lt_size (hp.wellFormed.exists_nodeAt?.mp ⟨path, hm⟩)
    have hlt' := hq.lt_size (hq.wellFormed.exists_nodeAt?.mp ⟨path, hm'⟩)
    have hmap := (of_snapshotBelow_eq hp.wellFormed hq.wellFormed hp.bare hq.bare hlt hlt'
      (ih hm hm')).2.2
    have hi := congrArg (fun l => l[i]?) hmap
    simpa [hn, hn'] using hi

/-- Pages with the same description show the same tree, paired by position. -/
theorem alike_of_snapshot_body_eq :
    Alike (SamePlace p.document q.document) p.document q.document ∧
      ∀ n n', SamePlace p.document q.document n n' →
        p.bindings.ofNode n = q.bindings.ofNode n' := by
  have hlt : ∀ {n n'}, SamePlace p.document q.document n n' →
      n < p.document.size ∧ n' < q.document.size := fun ⟨path, hn, hn'⟩ =>
    ⟨hp.lt_size (hp.wellFormed.exists_nodeAt?.mp ⟨path, hn⟩),
      hq.lt_size (hq.wellFormed.exists_nodeAt?.mp ⟨path, hn'⟩)⟩
  have hsame : ∀ {n n'}, SamePlace p.document q.document n n' → _ := fun hn =>
    of_snapshotBelow_eq hp.wellFormed hq.wellFormed hp.bare hq.bare (hlt hn).1 (hlt hn).2
      (snapshotBelow_eq_of_samePlace hp hq hroot hbody h hn)
  refine ⟨?_, fun n n' hn => (hsame hn).2.1⟩
  constructor
  case unique => exact biUnique_samePlace hp.wellFormed hq.wellFormed
  case root => exact ⟨[], rfl, rfl⟩
  case body =>
    refine ⟨[0], ?_, ?_⟩
    · exact nodeAt?_concat [] rfl (by rw [hp.children_root]; rfl)
    · exact nodeAt?_concat [] rfl (by rw [hq.children_root]; rfl)
  case lt_size => exact fun n n' hn => (hlt hn).1
  case face => exact fun n n' hn => (hsame hn).1
  case parent =>
    rintro n n' ⟨path, hpath, hpath'⟩
    rcases List.eq_nil_or_concat' path with rfl | ⟨path, i, rfl⟩
    · cases hpath; cases hpath'
      rw [hp.wellFormed.root_top, hq.wellFormed.root_top]
      exact .none
    · rw [nodeAt?, below?_concat, Option.bind_eq_some_iff] at hpath hpath'
      obtain ⟨m, hm, hn⟩ := hpath
      obtain ⟨m', hm', hn'⟩ := hpath'
      rw [hp.wellFormed.parent?_of_getElem? hn, hq.wellFormed.parent?_of_getElem? hn']
      exact .some ⟨path, hm, hm'⟩
  case children =>
    intro n n' hn
    have hlen := congrArg List.length (hsame hn).2.2
    rw [List.length_map, List.length_map] at hlen
    obtain ⟨path, hpath, hpath'⟩ := hn
    refine List.forall₂_of_length_eq_of_get hlen fun i hi hi' => ?_
    refine ⟨path ++ [i], nodeAt?_concat path hpath ?_, nodeAt?_concat path hpath' ?_⟩
    · exact List.getElem?_eq_getElem hi
    · exact List.getElem?_eq_getElem hi'

end SameSnapshot

end Page

end FormPage
