import FormPage.Proofs.Document.Stable

/-!
The balloon in its document. Between the actions of a page the tree holds the nodes of the balloon,
if there are any, the reserved id leads to its element, or else to a node that can hold nothing and
stays where it is. This module states the invariant and shows what keeps it.
-/

namespace FormPage

open Document Balloon Relation
open NodeSpec (flatAll places nodesAll)

/-- The nodes of a balloon in the tree: an attached element, and its first child of the class
`text`. -/
structure Document.Carries (d : Document) (parts : BalloonParts) : Prop where
  ne_root : parts.element ≠ root
  ne_body : parts.element ≠ body
  attached : d.AtOrAbove root parts.element
  region : ((d.children parts.element).find? fun n => hasClass d n "text") = some parts.textRegion

/-- The reserved id leads to the element of the balloon, or to a void node outside of its text. -/
def Document.Finds (d : Document) (b : Balloon) : Prop :=
  d.elementById? b.id = b.element? ∨
    ∃ e t, d.elementById? b.id = some e ∧ d.tag? e = some t ∧ t.isVoid = true ∧
      ∀ parts, b.parts = some parts → ¬ d.Above parts.textRegion e

/-- What holds of the document and the balloon of a page after loading and after every action. -/
structure Document.Hosts (d : Document) (b : Balloon) : Prop where
  framed : d.Framed
  carries : ∀ parts, b.parts = some parts → d.Carries parts
  finds : d.Finds b

variable {d d' : Document} {b : Balloon} {n p : NodeId} {place : List NodeId → List NodeId}
  {s : NodeSpec} {ss : List NodeSpec} {parts : BalloonParts}

/-! ### The nodes of a balloon -/

namespace Document

theorem Carries.parent?_region (h : d.Carries parts) (hd : WellFormed d) :
    d.parent? parts.textRegion = some parts.element :=
  (hd.mem_children _ _).mp (List.mem_of_find?_eq_some h.region)

theorem Carries.element_lt (h : d.Carries parts) (hd : d.Framed) : parts.element < d.size :=
  hd.lt_size h.attached

theorem Carries.region_lt (h : d.Carries parts) (hd : WellFormed d) :
    parts.textRegion < d.size :=
  lt_size_of_parent (h.parent?_region hd)

/-- The region lies below the element, and not the other way round. -/
theorem Carries.not_above (h : d.Carries parts) (hd : WellFormed d) :
    ¬ d.Above parts.textRegion parts.element := fun hr =>
  hd.not_above_self _ (TransGen.head (h.parent?_region hd) hr)

theorem Carries.region_ne (h : d.Carries parts) (hd : WellFormed d) :
    parts.textRegion ≠ parts.element := fun he =>
  hd.parent_ne_self (h.parent?_region hd) he.symm

theorem Carries.region_ne_root (h : d.Carries parts) (hd : WellFormed d) :
    parts.textRegion ≠ root := fun he => by
  have hp := h.parent?_region hd
  rw [he, hd.root_top] at hp
  cases hp

theorem Carries.region_ne_body (h : d.Carries parts) (hd : d.Framed) :
    parts.textRegion ≠ body := fun he => by
  have hp := h.parent?_region hd.wellFormed
  rw [he, hd.parent?_body] at hp
  exact h.ne_root (Option.some.inj hp).symm

theorem Hosts.ne_of_element {e : NodeId} (h : d.Hosts b) (he : b.element? = some e) :
    e ≠ root ∧ e ≠ body := by
  obtain ⟨parts, hparts, rfl⟩ := Option.map_eq_some_iff.mp he
  exact ⟨(h.carries parts hparts).ne_root, (h.carries parts hparts).ne_body⟩

/-- A balloon that its id leads to has the region that is found in its element. -/
theorem Hosts.parts_of_found {e : NodeId} (h : d.Hosts b)
    (hown : d.elementById? b.id = b.element?) (hfound : d.elementById? b.id = some e) :
    ∃ region, b.parts = some ⟨e, region⟩ ∧
      ((d.children e).find? fun n => hasClass d n "text") = some region := by
  obtain ⟨parts, hparts, rfl⟩ := Option.map_eq_some_iff.mp (hown.symm.trans hfound)
  exact ⟨parts.textRegion, hparts, (h.carries parts hparts).region⟩

/-! ### Attributes of new nodes -/

theorem attribute?_graft_old (h : n < d.size) (k : String) :
    (d.graft p place ss).attribute? n k = d.attribute? n k := by
  rw [attribute?_eq_face, attribute?_eq_face, face?_graft_old h]

theorem attribute?_graft_new (h : d.size ≤ n) {k : String}
    (hs : ∀ s ∈ flatAll ss, s.attributes.get? k = none) :
    (d.graft p place ss).attribute? n k = none := by
  obtain ⟨i, rfl⟩ := Nat.exists_eq_add_of_le h
  rw [attribute?_eq_face, face?_graft_new]
  cases hx : (flatAll ss)[i]? with
  | none => rfl
  | some s => exact hs s (List.mem_of_getElem? hx)

theorem attribute?_lay_new (h : d.size ≤ n) {k : String}
    (hs : ∀ t ∈ s.flat, t.attributes.get? k = none) : (d.lay s).attribute? n k = none := by
  obtain ⟨i, rfl⟩ := Nat.exists_eq_add_of_le h
  rw [attribute?, Document.lay, node?_addNodes_new]
  cases hx : (s.nodes none d.size)[i]? with
  | none => rfl
  | some x =>
    obtain ⟨t, ht, htx⟩ : ∃ t ∈ s.flat, t.face = x.face := by
      have hmem := List.mem_map_of_mem (f := Node.face) (List.mem_of_getElem? hx)
      rw [NodeSpec.face_nodes] at hmem
      exact List.mem_map.mp hmem
    have hattributes : x.attributes = t.attributes := (congrArg Node.attributes htx).symm
    rw [Option.bind_some, hattributes]
    exact hs t ht

theorem hasClass_of_attribute {cssClass : String}
    (h : d'.attribute? n "class" = d.attribute? n "class") :
    hasClass d' n cssClass = hasClass d n cssClass := by
  rw [hasClass, hasClass, h]

theorem hasClass_of_none {cssClass : String} (h : d.attribute? n "class" = none) :
    hasClass d n cssClass = false := by
  rw [hasClass, h]

/-! ### Attached nodes of a graft -/

/-- Of one grafted tree only the topmost node hangs below an older node. -/
theorem parent?_graft_one (h : d.size ≤ n) {q : NodeId}
    (hq : (d.graft p place [s]).parent? n = some q) : (n = d.size ∧ q = p) ∨ d.size ≤ q := by
  obtain ⟨i, rfl⟩ := Nat.exists_eq_add_of_le h
  rw [parent?, node?_graft_new, NodeSpec.nodesAll_singleton, NodeSpec.nodes_eq] at hq
  cases i with
  | zero => exact .inl ⟨rfl, (Option.some.inj hq).symm⟩
  | succ i =>
    rw [List.getElem?_cons_succ] at hq
    obtain ⟨x, hx, hxq⟩ := Option.bind_eq_some_iff.mp hq
    rcases (NodeSpec.links_of_mem_nodesAll (List.mem_of_getElem? hx)).1 with hr | ⟨r, hr, hle⟩
    · exact .inr (Nat.le_of_eq (Option.some.inj (hr.symm.trans hxq)))
    · exact .inr (Nat.le_of_succ_le (Option.some.inj (hr.symm.trans hxq) ▸ hle))

/-- A grafted node that is attached hangs below the topmost one. -/
theorem atOrAbove_graft_new (hr : (d.graft p place [s]).AtOrAbove root n) (hroot : root < d.size)
    (h : d.size ≤ n) : (d.graft p place [s]).AtOrAbove d.size n := by
  induction hr using ReflTransGen.head_induction_on with
  | refl => exact absurd hroot (Nat.not_lt_of_le h)
  | head hs _ ih =>
    rcases parent?_graft_one h hs with ⟨rfl, -⟩ | hq
    · exact .refl
    · exact .head hs (ih hq)

/-- What is laid out without a place is not attached. -/
theorem lt_of_attached_lay (hr : (d.lay s).AtOrAbove root n) (hroot : root < d.size) :
    n < d.size := by
  by_contra hn
  have hge : d.size ≤ n := Nat.le_of_not_lt hn
  clear hn
  induction hr using ReflTransGen.head_induction_on with
  | refl => exact absurd hroot (Nat.not_lt_of_le hge)
  | head hs _ ih => exact ih (parent?_lay_new hge hs)

theorem sameAbove_old (h : WellFormed d) (hparent : ∀ n < d.size, d'.parent? n = d.parent? n) :
    SameAbove (· < d.size) d d' :=
  ⟨fun n hn => (hparent n hn).symm, fun n q _ hq => h.parent_lt n q hq⟩

/-! ### What keeps the invariant -/

/-- Links stay right where no older node changes and what is new is not outside the element. -/
theorem Linked.of_old {element : Option NodeId} (h : d.Linked element) (hd : d.Framed)
    (hd' : d'.Framed) (he : ∀ e, element = some e → e ≠ root ∧ e ≠ body)
    (hlt : ∀ n, d'.Outside element n → n < d.size)
    (hparent : ∀ n < d.size, d'.parent? n = d.parent? n)
    (hface : ∀ n < d.size, d'.face? n = d.face? n)
    (hlink : ∀ n < d.size, d'.offsetLink? n = d.offsetLink? n) : d'.Linked element :=
  h.of_same hd hd' he fun n hn => by
    have hn := hlt n hn
    rw [hparent n hn, look?_eq_face, look?_eq_face, hface n hn, hlink n hn]
    exact ⟨rfl, rfl, rfl⟩

/-- Older nodes keep their parents and what the balloon is found by, and what is new carries neither
the id nor, below the element, the class of the region. -/
structure Extends (b : Balloon) (d d' : Document) : Prop where
  size : d.size ≤ d'.size
  parent : ∀ n < d.size, d'.parent? n = d.parent? n
  children : ∀ n < d.size, (d'.children n).filter (· < d.size) = d.children n
  tag : ∀ n < d.size, d'.tag? n = d.tag? n
  id : ∀ n < d.size, d'.attribute? n "id" = d.attribute? n "id"
  cssClass : ∀ n < d.size, d'.attribute? n "class" = d.attribute? n "class"
  id_new : ∀ n, d.size ≤ n → d'.attribute? n "id" ≠ some b.id
  cssClass_new : ∀ n e, d.size ≤ n → b.element? = some e → d'.parent? n = some e →
    d'.attribute? n "class" = none

theorem Extends.trans {d₁ d₂ d₃ : Document} (h : Extends b d₁ d₂) (h' : Extends b d₂ d₃) :
    Extends b d₁ d₃ := by
  have hlt : ∀ {n}, n < d₁.size → n < d₂.size := fun hn => Nat.lt_of_lt_of_le hn h.size
  constructor
  case size => exact Nat.le_trans h.size h'.size
  case parent => exact fun n hn => (h'.parent n (hlt hn)).trans (h.parent n hn)
  case children =>
    intro n hn
    rw [← h.children n hn, ← h'.children n (hlt hn), List.filter_filter]
    refine List.filter_congr fun c _ => ?_
    by_cases hc : c < d₁.size
    · simp [hc, hlt hc]
    · simp [hc]
  case tag => exact fun n hn => (h'.tag n (hlt hn)).trans (h.tag n hn)
  case id => exact fun n hn => (h'.id n (hlt hn)).trans (h.id n hn)
  case cssClass => exact fun n hn => (h'.cssClass n (hlt hn)).trans (h.cssClass n hn)
  case id_new =>
    intro n hn
    by_cases hn' : n < d₂.size
    · rw [h'.id n hn']; exact h.id_new n hn
    · exact h'.id_new n (Nat.le_of_not_lt hn')
  case cssClass_new =>
    intro n e hn he hp
    by_cases hn' : n < d₂.size
    · rw [h'.cssClass n hn']
      exact h.cssClass_new n e hn he ((h'.parent n hn').symm.trans hp)
    · exact h'.cssClass_new n e (Nat.le_of_not_lt hn') he hp

/-- The invariant is kept where a document is extended. -/
theorem Hosts.of_extends (h : d.Hosts b) (hd' : d'.Framed) (he : Extends b d d') :
    d'.Hosts b := by
  have hwf := h.framed.wellFormed
  have hsame := sameAbove_old hwf he.parent
  have hroot : root < d.size := h.framed.lt_size .refl
  have hfound := elementById?_of_old hwf hd'.wellFormed hroot he.size he.parent he.children he.id
    he.id_new
  refine ⟨hd', fun parts hparts => ?_, ?_⟩
  · have hc := h.carries parts hparts
    have hlt := hc.element_lt h.framed
    refine ⟨hc.ne_root, hc.ne_body, hsame.atOrAbove hlt hc.attached, ?_⟩
    rw [← hc.region, ← he.children _ hlt]
    -- among the children, only older ones can be the region
    refine (find?_filter_of_imp (fun n => decide (n < d.size)) fun n hn hk => ?_).symm.trans
      ?_
    · refine decide_eq_true ?_
      by_contra hge
      have hnone := he.cssClass_new n parts.element (Nat.le_of_not_lt hge)
        (by rw [element?, hparts]; rfl) ((hd'.wellFormed.mem_children _ n).mp hn)
      rw [hasClass_of_none hnone] at hk
      cases hk
    · have hall : ∀ n ∈ (d'.children parts.element).filter (· < d.size),
          hasClass d' n "text" = hasClass d n "text" := fun n hn =>
        hasClass_of_attribute (he.cssClass n (of_decide_eq_true (List.mem_filter.mp hn).2))
      generalize (d'.children parts.element).filter (· < d.size) = l at hall
      induction l with
      | nil => rfl
      | cons x l ih =>
        rw [List.find?_cons, List.find?_cons, hall x List.mem_cons_self,
          ih fun y hy => hall y (List.mem_cons_of_mem x hy)]
  · rcases h.finds with hf | ⟨e, t, hf, ht, hv, hout⟩
    · exact .inl (hfound.trans hf)
    · have hlt := lt_size_of_tag ht
      refine .inr ⟨e, t, hfound.trans hf, by rw [he.tag e hlt, ht], hv, fun parts hparts hr => ?_⟩
      exact hout parts hparts (hsame.symm.above hlt hr)

end Document

end FormPage
