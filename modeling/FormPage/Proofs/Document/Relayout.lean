import FormPage.Proofs.Document.Alike
import FormPage.Proofs.Document.Nearest
import FormPage.Proofs.Document.Reachable

/-!
Laying out a document anew. All links to positioned ancestors are computed from the tree, the tags
and the styles, which stay as they are: documents that differ in their links alone become one and
the same (`SameButLinks.relayout_eq`), so that a second layout finds nothing to change. Main
statement: `relayout_after`.
-/

namespace FormPage.Document

variable {d d' : Document} {n a : NodeId}

/-- Two documents differ in nothing but the links to positioned ancestors. -/
structure SameButLinks (d d' : Document) : Prop where
  size : d'.size = d.size
  reportsOffsets : d'.reportsOffsets = d.reportsOffsets
  node : ∀ n, (d'.node? n).map (fun x => { x with offsetParent := none }) =
    (d.node? n).map fun x => { x with offsetParent := none }

theorem sameButLinks_relayout (d : Document) : d.SameButLinks d.relayout where
  size := size_relayout d
  reportsOffsets := rfl
  node n := by rw [node?_relayout, Option.map_map]; rfl

namespace SameButLinks

variable (h : SameButLinks d d')
include h

/-- What is read off a node without its link is the same. -/
theorem map_node? {α : Type} (g : Node → α)
    (hg : ∀ x, g { x with offsetParent := none } = g x) (n : NodeId) :
    (d'.node? n).map g = (d.node? n).map g := by
  have hn := congrArg (Option.map g) (h.node n)
  simpa only [Option.map_map, Function.comp_def, hg] using hn

theorem parent? (n : NodeId) : d'.parent? n = d.parent? n := by
  have hjoin : ∀ x? : Option Node, x?.bind (·.parent) = (x?.map (·.parent)).join
    | none => rfl
    | some _ => rfl
  rw [Document.parent?, Document.parent?, hjoin, hjoin, h.map_node? (·.parent) fun _ => rfl]

theorem look? (n : NodeId) : d'.look? n = d.look? n :=
  h.map_node? (fun x => (x.tag, x.style)) (fun _ => rfl) n

/-- The layout does not look at the links. -/
theorem layoutParent? (n : NodeId) : d'.layoutParent? n = d.layoutParent? n := by
  have hpath : ∀ start, d'.path d'.parent? start = d.path d.parent? start := fun start => by
    rw [path, path, h.size, funext h.parent?]
  have hmeasures : ∀ static, d'.measures static = d.measures static := fun static => by
    funext m
    rw [measures_eq_look, measures_eq_look, h.look?]
  have hrendered : d'.isRendered n = d.isRendered n := by
    simp only [isRendered, inclusiveAncestors, hpath, style?_eq_look, h.look?]
  rw [layoutParent?_eq_look, layoutParent?_eq_look, h.look?, hrendered, ancestors, ancestors,
    h.parent?, hpath]
  simp only [hmeasures]

/-- Documents that differ in their links alone are laid out alike. -/
theorem relayout_eq : d'.relayout = d.relayout := by
  refine eq_of_node? (fun n => ?_) h.reportsOffsets
  rw [node?_relayout, node?_relayout, h.layoutParent?]
  exact h.map_node? (fun x => { x with offsetParent := d.layoutParent? n }) (fun _ => rfl) n

end SameButLinks

/-- After any operations, a layout links a node that is laid out to the nearest of the ancestors
that measure it, and to none exactly if there is no such ancestor; it links no other node. Which
links there were before makes no difference, so that a second layout changes nothing. Every link
leads upwards in the tree, and nothing but the links is changed. -/
theorem relayout_after (ops : List Operation) :
    (∀ n, ¬ (after ops).LaidOut n → (after ops).relayout.offsetLink? n = none) ∧
      (∀ n, (after ops).LaidOut n →
        (∀ a, (after ops).relayout.offsetLink? n = some a ↔ (after ops).NearestMeasuring n a) ∧
        ((after ops).relayout.offsetLink? n = none ↔
          ∀ a, (after ops).Above a n → ¬ (after ops).Measures n a)) ∧
      (∀ d, (after ops).SameButLinks d → d.relayout = (after ops).relayout) ∧
      (after ops).relayout.relayout = (after ops).relayout ∧
      (∀ n a, (after ops).relayout.offsetLink? n = some a → (after ops).Above a n) ∧
      (after ops).SameButLinks (after ops).relayout := by
  have h := wellFormed_after ops
  generalize after ops = d at h
  have hsame := sameButLinks_relayout d
  simp only [offsetLink?_relayout]
  refine ⟨fun n hout => ?_, fun n hlaid => ⟨fun a => ?_, ?_⟩, fun _ hd => hd.relayout_eq,
    hsame.relayout_eq, fun n a ha => layoutParent?_above h ha, hsame⟩
  · rw [Option.eq_none_iff_forall_ne_some]
    exact fun a ha => hout (h.layoutParent?_eq_some_iff.mp ha).1
  · rw [h.layoutParent?_eq_some_iff]
    exact and_iff_right hlaid
  · rw [Option.eq_none_iff_forall_ne_some]
    refine ⟨fun hnone a habove hmeasures => ?_, fun hnone a ha => ?_⟩
    · obtain ⟨b, hb⟩ := h.exists_nearestMeasuring habove hmeasures
      exact hnone b (h.layoutParent?_eq_some_iff.mpr ⟨hlaid, hb⟩)
    · have hb := (h.layoutParent?_eq_some_iff.mp ha).2
      exact hnone a hb.above hb.measures

end FormPage.Document
