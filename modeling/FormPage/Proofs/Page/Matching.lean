import FormPage.Proofs.Balloon.Owned
import FormPage.Proofs.Document.AlikeEdits
import FormPage.Proofs.Document.Nearest
import FormPage.Proofs.Page.Load

/-!
What actions read of two documents that look alike. The links of the layout may be missing or stale
at nodes that are detached or lie in the balloon; outside of it they are what the tree and the
styles give, so that searches upwards, the place of the balloon and the rows around a control are
the same up to the pairing of nodes.
-/

namespace FormPage

open Document Balloon Relation Relator

variable {d d' : Document} {b b' : Balloon} {n n' a a' : NodeId} {w : NodeId → NodeId → Prop}
  {tag : Tag}

namespace Document

/-! ### Steps that agree -/

theorem follow_congr {next next' : NodeId → Option NodeId} {S : NodeId → Prop}
    (hnext : ∀ n, S n → next n = next' n) (hclosed : ∀ n m, S n → next n = some m → S m) :
    ∀ (k : Nat) {n : NodeId}, S n → follow next k (some n) = follow next' k (some n)
  | 0, _, _ => rfl
  | k + 1, n, hn => by
    rw [follow, follow, ← hnext n hn]
    cases hm : next n with
    | none => rw [follow_none, follow_none]
    | some m => rw [follow_congr hnext hclosed k (hclosed n m hn hm)]

/-- Paths are the same as long as their steps are. -/
theorem path_congr {next next' : NodeId → Option NodeId} {S : NodeId → Prop}
    (hnext : ∀ n, S n → next n = next' n) (hclosed : ∀ n m, S n → next n = some m → S m)
    (hn : S n) : d.path next (some n) = d.path next' (some n) :=
  follow_congr hnext hclosed _ hn

/-! ### Going up from an attached node -/

theorem layoutParent?_root (d : Document) : d.layoutParent? root = none := by
  rw [layoutParent?_eq_look]
  cases d.look? root <;> simp

theorem Settled.outside_root (h : d.Settled b) : d.Outside b.element? root :=
  ⟨.refl, fun _ he hr =>
    (h.hosts.ne_of_element he).1 (h.hosts.framed.wellFormed.eq_root_of_above hr)⟩

/-- Outside of the balloon, what the layout reports is what the tree and the styles give. -/
theorem Settled.offsetParent?_eq (h : d.Settled b) (hn : d.Outside b.element? n) :
    d.offsetParent? n = d.layoutParent? n := by
  rw [offsetParent?, h.hosts.framed.reports, if_pos rfl, h.linked n hn]

/-- Going up from an attached node is going up in the tree. -/
theorem Settled.upward?_eq (h : d.Settled b) (hn : d.AtOrAbove root n) :
    d.upward? n = d.parent? n := by
  rw [upward?]
  rcases hn.cases_head with rfl | ⟨q, hq, -⟩
  · rw [h.hosts.framed.wellFormed.root_top, h.offsetParent?_eq h.outside_root, layoutParent?_root]
    rfl
  · rw [show d.parent? n = some q from hq]; rfl

theorem Settled.path_upward (h : d.Settled b) (hn : d.AtOrAbove root n) :
    d.path d.upward? (some n) = d.inclusiveAncestors n := by
  have hup : ∀ m, d.AtOrAbove root m → d.upward? m = d.parent? m := fun m => h.upward?_eq
  refine path_congr hup (fun m q hm hq => ?_) hn
  rw [hup m hm] at hq
  refine atOrAbove_of_parent hq hm ?_
  rintro rfl
  rw [h.hosts.framed.wellFormed.root_top] at hq
  cases hq

/-- What lies above an attached node is attached. -/
theorem WellFormed.attached_of_above (h : WellFormed d) (hn : d.AtOrAbove root n)
    (ha : d.AtOrAbove a n) : d.AtOrAbove root a := by
  rcases reaches_total ha hn with hr | hr
  · exact hr
  · rw [h.eq_root_of_above hr]; exact .refl

theorem Settled.attached_of_nearestAbove (h : d.Settled b) (hn : d.AtOrAbove root n)
    (ha : d.nearestAbove? (some n) tag = some a) : d.AtOrAbove root a := by
  have hwf := h.hosts.framed.wellFormed
  rw [nearestAbove?, h.path_upward hn] at ha
  exact hwf.attached_of_above hn (hwf.mem_inclusiveAncestors.mp (List.mem_of_find?_eq_some ha))

theorem Aligned.atOrAbove_iff (h : Aligned w d d') (hd : WellFormed d) (hd' : WellFormed d')
    (ha : w a a') (hn : w n n') : d.AtOrAbove a n ↔ d'.AtOrAbove a' n' := by
  rw [← hd.mem_inclusiveAncestors, ← hd'.mem_inclusiveAncestors]
  exact List.rel_mem h.unique ha (h.inclusiveAncestors hd hd' hn)

section Settled

variable (h : Alike w d d') (hd : d.Settled b) (hd' : d'.Settled b')
include h hd hd'

theorem Alike.attached_iff (hn : w n n') :
    d.AtOrAbove Document.root n ↔ d'.AtOrAbove Document.root n' :=
  h.aligned.atOrAbove_iff hd.hosts.framed.wellFormed hd'.hosts.framed.wellFormed h.root hn

theorem Alike.nearestAbove? (hn : w n n') (hr : d.AtOrAbove Document.root n) (tag : Tag) :
    Option.Rel w (d.nearestAbove? (some n) tag) (d'.nearestAbove? (some n') tag) := by
  rw [Document.nearestAbove?, Document.nearestAbove?, hd.path_upward hr,
    hd'.path_upward ((h.attached_iff hd hd' hn).mp hr)]
  exact h.firstTagged (h.aligned.inclusiveAncestors hd.hosts.framed.wellFormed
    hd'.hosts.framed.wellFormed hn) tag

theorem Alike.outside_iff (he : Option.Rel w b.element? b'.element?) (hn : w n n') :
    d.Outside b.element? n ↔ d'.Outside b'.element? n' := by
  refine and_congr (h.attached_iff hd hd' hn) ?_
  generalize b.element? = e, b'.element? = e' at he
  cases he with
  | none => simp
  | some he =>
    simp only [Option.some.injEq, forall_eq']
    exact not_congr (h.aligned.atOrAbove_iff hd.hosts.framed.wellFormed
      hd'.hosts.framed.wellFormed he hn)

end Settled

/-! ### Positioned ancestors -/

theorem WellFormed.outside_of_above (h : WellFormed d) {element : Option NodeId}
    (hn : d.Outside element n) (ha : d.Above a n) : d.Outside element a := by
  induction ha with
  | single hs => exact h.outside_parent hn hs
  | tail _ hs ih => exact h.outside_parent ih hs

/-- Outside of the balloon, the positioned ancestors are those of the tree and the styles. -/
theorem Settled.offsetChain_eq (h : d.Settled b) (hn : d.Outside b.element? n) :
    d.offsetChain n = d.path d.layoutParent? (some n) := by
  have hwf := h.hosts.framed.wellFormed
  refine path_congr (S := d.Outside b.element?) (fun m hm => h.offsetParent?_eq hm)
    (fun m a hm ha => ?_) hn
  rw [h.offsetParent?_eq hm] at ha
  exact hwf.outside_of_above hm (layoutParent?_above hwf ha)

/-- A child of a node outside of the balloon lies outside, unless it is the element. -/
theorem outside_child {element : Option NodeId} {c : NodeId} (hn : d.Outside element n)
    (hc : d.parent? c = some n) (hne : ∀ e, element = some e → d.parent? e ≠ some n) :
    d.Outside element c := by
  refine ⟨.head hc hn.1, fun e he hr => ?_⟩
  rcases hr.cases_head with rfl | ⟨q, hq, hr⟩
  · exact hne c he hc
  · obtain rfl := step_unique hq hc
    exact hn.2 e he hr

section Settled

variable (h : Alike w d d') (hd : d.Settled b) (hd' : d'.Settled b')
  (he : Option.Rel w b.element? b'.element?)
include h hd hd' he

theorem Alike.offsetParent? (hn : w n n') (hout : d.Outside b.element? n) :
    Option.Rel w (d.offsetParent? n) (d'.offsetParent? n') := by
  rw [hd.offsetParent?_eq hout, hd'.offsetParent?_eq ((h.outside_iff hd hd' he hn).mp hout)]
  exact h.aligned.layoutParent? hd.hosts.framed.wellFormed hd'.hosts.framed.wellFormed hn

theorem Alike.offsetChain (hn : w n n') (hout : d.Outside b.element? n) :
    List.Forall₂ w (d.offsetChain n) (d'.offsetChain n') := by
  have hwf := hd.hosts.framed.wellFormed
  have hwf' := hd'.hosts.framed.wellFormed
  rw [hd.offsetChain_eq hout, hd'.offsetChain_eq ((h.outside_iff hd hd' he hn).mp hout)]
  exact path_rel hwf.acyclic_layoutParent hwf'.acyclic_layoutParent
    (fun _ _ hm => h.aligned.layoutParent? hwf hwf' hm) hn

/-- The balloon goes to the same place for paired nodes outside of it. -/
theorem Alike.balloonPlacement? (hn : w n n') (hout : d.Outside b.element? n)
    (hne : ∀ e, b.element? = some e → d.parent? e ≠ some n) (nudge : Nudge) :
    d.balloonPlacement? n nudge = d'.balloonPlacement? n' nudge := by
  have hchild := h.firstChild? hn
  rw [Document.balloonPlacement?, Document.balloonPlacement?]
  cases hc : d.firstChild? n with
  | none =>
    rw [hc] at hchild
    generalize d'.firstChild? n' = s' at hchild
    cases hchild
    rfl
  | some c =>
    rw [hc] at hchild
    generalize d'.firstChild? n' = s' at hchild
    cases hchild with
    | @some _ c' hw =>
      have hmem : c ∈ d.children n := List.mem_of_head? hc
      have hcout := outside_child hout ((hd.hosts.framed.wellFormed.mem_children n c).mp hmem) hne
      have hoffset := h.offsetParent? hd hd' he hw hcout
      have hboxes : (d.offsetChain c).map d.box = (d'.offsetChain c').map d'.box :=
        map_eq_of_rel (h.offsetChain hd hd' he hw hcout) fun _ _ _ hm => h.box hm
      simp only [Option.bind_eq_bind, Option.bind_some, hboxes, h.box hw]
      generalize d.offsetParent? c = s, d'.offsetParent? c' = s' at hoffset
      cases hoffset with
      | none => rfl
      | some _ => rfl

end Settled

end Document

/-! ### The rows around a control -/

theorem bind_rel {α β γ δ : Type} {r : α → β → Prop} {s : γ → δ → Prop} {x : Option α}
    {y : Option β} {f : α → Option γ} {g : β → Option δ} (hxy : Option.Rel r x y)
    (hfg : ∀ a b, x = some a → r a b → Option.Rel s (f a) (g b)) :
    Option.Rel s (x.bind f) (y.bind g) := by
  cases hxy with
  | none => exact .none
  | some h => exact hfg _ _ rfl h

namespace Row

/-- Two templates with paired nodes and the same rest. -/
structure PairedTemplate (w : NodeId → NodeId → Prop) (t t' : Template) : Prop where
  anchor : w t.anchor t'.anchor
  container : w t.container t'.container
  index : t.index = t'.index
  inputType : t.inputType = t'.inputType
  inputSize : t.inputSize = t'.inputSize
  inputName : t.inputName = t'.inputName

theorem PairedTemplate.row_eq {t t' : Template} (h : PairedTemplate w t t') (field : String)
    (number : Int) : t.row field number = t'.row field number := by
  rw [Template.row, Template.row, Template.inputAttributes, Template.inputAttributes, h.inputType,
    h.inputSize, h.inputName]

/-- The row of an attached control hangs below the node that holds the rows. -/
theorem placed_of_attached (hd : d.Settled b) (hr : d.AtOrAbove root n) {field : String}
    {t : Template} (ht : Template.locate? d n field = some t) :
    d.parent? t.anchor = some t.container ∧ d.AtOrAbove root t.container := by
  obtain ⟨-, -, -, ha, hc, -⟩ := locate?_eq_some ht
  have hwf := hd.hosts.framed.wellFormed
  have hattached := hd.attached_of_nearestAbove hr ha
  rw [hd.upward?_eq hattached] at hc
  exact ⟨hc, hwf.attached_of_above hattached (.single hc)⟩

/-- The rows around paired controls are paired. -/
theorem locate?_rel (h : Alike w d d') (hd : d.Settled b) (hd' : d'.Settled b') (hn : w n n')
    (hr : d.AtOrAbove root n) (field : String) :
    Option.Rel (PairedTemplate w) (Template.locate? d n field) (Template.locate? d' n' field) := by
  have hwf := hd.hosts.framed.wellFormed
  have hwf' := hd'.hosts.framed.wellFormed
  refine bind_rel (h.nearestAbove? hd hd' hn hr .tr) fun anchor anchor' hanchor hwa => ?_
  have hattached := hd.attached_of_nearestAbove hr hanchor
  have hcontainer : Option.Rel w (d.upward? anchor) (d'.upward? anchor') := by
    rw [hd.upward?_eq hattached, hd'.upward?_eq ((h.attached_iff hd hd' hwa).mp hattached)]
    exact h.parent anchor anchor' hwa
  refine bind_rel hcontainer fun container container' _ hwc => ?_
  refine bind_rel (h.nearestBefore? hwf hwf' (h.previousSibling? hwf hwf' hwa) .tr)
    fun above above' _ hwu => ?_
  refine bind_rel (h.firstChildTagged? hwf hwf' (.some hwu) .td) fun cell cell' _ hwl => ?_
  have hinput := h.nearestAfter? hwf hwf' (h.nextSibling? hwf hwf' hwl) .td
  refine bind_rel (h.firstChildTagged? hwf hwf' hinput .input) fun input input' _ hwi => ?_
  refine .some ⟨hwa, hwc, ?_, h.attribute? hwi "type", h.attribute? hwi "size", ?_⟩
  · dsimp only
    rw [h.textContent hwf hwf' hwl]
  · dsimp only
    rw [h.attribute? hwi "name"]

end Row

end FormPage
