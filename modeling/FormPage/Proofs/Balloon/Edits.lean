import FormPage.Proofs.Balloon.Hosts
import FormPage.Proofs.Row.Insert
import FormPage.Proofs.Submission.Posted

/-!
Edits of a document with a balloon. A change of what a node shows, a tree that is laid out or
grafted and a new layout extend a document, which keeps the invariant of its balloon; so do taking
everything out of the region and building a balloon. Each of them keeps the links outside of the
balloon as well.
-/

namespace FormPage

open Document Balloon Relation
open NodeSpec (flatAll places nodesAll)

variable {d d' : Document} {b : Balloon} {n p : NodeId} {s : NodeSpec} {parts : BalloonParts}

/-! ### Framed documents -/

namespace Document

theorem Framed.of_old (h : d.Framed) (hwf : WellFormed d') (hbare : ElementsBare d')
    (hroot : d'.face? root = d.face? root) (hbody : d'.face? body = d.face? body)
    (hchildren : d'.children root = d.children root)
    (hreports : d'.reportsOffsets = d.reportsOffsets) : d'.Framed where
  wellFormed := hwf
  bare := hbare
  root_face := hroot.trans h.root_face
  body_face := hbody.trans h.body_face
  children_root := hchildren.trans h.children_root
  reports := hreports.trans h.reports

theorem Framed.root_lt (h : d.Framed) : root < d.size := h.lt_size .refl

theorem Framed.body_lt (h : d.Framed) : body < d.size := lt_size_of_parent h.parent?_body

theorem Framed.tag?_body (h : d.Framed) : d.tag? body = some .body := by
  rw [tag?_eq_face, h.body_face]; rfl

/-- A change of what a node shows keeps the frame, if it is neither the root nor the body. -/
theorem Framed.update (h : d.Framed) {f : Node → Node} (hne : n ≠ root ∧ n ≠ body)
    (hwf : WellFormed (d.update n f)) (hbare : ElementsBare (d.update n f))
    (hchildren : ∀ x, (f x).children = x.children) : (d.update n f).Framed := by
  refine h.of_old hwf hbare ?_ ?_ (children_update hchildren) rfl
  · rw [face?, node?_update, if_neg hne.1]; rfl
  · rw [face?, node?_update, if_neg hne.2]; rfl

theorem Framed.lay (h : d.Framed) (hwf : WellFormed (d.lay s)) (hbare : ElementsBare (d.lay s)) :
    (d.lay s).Framed :=
  h.of_old hwf hbare (face?_lay_old h.root_lt) (face?_lay_old h.body_lt)
    (children_lay_old h.root_lt) rfl

theorem Framed.graft (h : d.Framed) {place : List NodeId → List NodeId} {ss : List NodeSpec}
    (hp : p ≠ root) (hwf : WellFormed (d.graft p place ss))
    (hbare : ElementsBare (d.graft p place ss)) : (d.graft p place ss).Framed :=
  h.of_old hwf hbare (face?_graft_old h.root_lt) (face?_graft_old h.body_lt)
    (by rw [children_graft_old h.root_lt, if_neg (Ne.symm hp)]) rfl

theorem Framed.relayout (h : d.Framed) : d.relayout.Framed :=
  h.of_old h.wellFormed.relayout (h.bare.of_face (face?_relayout d)) (face?_relayout d _)
    (face?_relayout d _) (children_relayout d _) rfl

theorem reportsOffsets_clear (region : NodeId) : ∀ (ns : List NodeId) (d : Document),
    (ns.foldl (clearChild region) d).reportsOffsets = d.reportsOffsets
  | [], _ => rfl
  | c :: ns, d => by
    rw [List.foldl_cons, reportsOffsets_clear region ns, clearChild_eq]
    split
    · rw [detach]; split <;> rfl
    · rfl

theorem Framed.cleared (h : d.Framed) {region : NodeId} (hne : region ≠ root) :
    (Balloon.cleared d region).Framed :=
  h.of_old (wellFormed_cleared h.wellFormed region)
    (clear_kept elementsBare_kept region _ h.bare) (face?_cleared h.wellFormed _ _)
    (face?_cleared h.wellFormed _ _)
    (by rw [children_cleared h.wellFormed, if_neg (Ne.symm hne)]) (reportsOffsets_clear region _ d)

/-! ### Edits that keep the invariant -/

/-- A change of what a node shows, in which the balloon is not looked up by what changed. -/
theorem Hosts.extends_update (h : d.Hosts b) {f : Node → Node}
    (hparent : ∀ x, (f x).parent = x.parent) (hchildren : ∀ x, (f x).children = x.children)
    (htag : ∀ x, (f x).tag = x.tag)
    (hattributes : ∀ x k, k ≠ "value" → (f x).attributes.get? k = x.attributes.get? k) :
    Extends b d (d.update n f) := by
  have hattribute : ∀ m k, k ≠ "value" → (d.update n f).attribute? m k = d.attribute? m k :=
    fun m k hk => bind_node?_update (fun x => x.attributes.get? k) fun x => hattributes x k hk
  constructor
  case size => exact Nat.le_of_eq (size_update d n f).symm
  case parent => exact fun m _ => parent?_update hparent
  case children =>
    intro m _
    rw [children_update hchildren]
    exact h.framed.wellFormed.filter_children
  case tag => exact fun m _ => map_node?_update (·.tag) htag
  case id => exact fun m _ => hattribute m "id" (by decide)
  case cssClass => exact fun m _ => hattribute m "class" (by decide)
  case id_new =>
    intro m hm ha
    obtain ⟨x, hx, -⟩ := Option.bind_eq_some_iff.mp ha
    have hlt := lt_size_of_node hx
    rw [size_update] at hlt
    exact absurd hlt (Nat.not_lt_of_le hm)
  case cssClass_new =>
    intro m e hm _ he
    have hlt := lt_size_of_parent he
    rw [size_update] at hlt
    exact absurd hlt (Nat.not_lt_of_le hm)

/-- Links outlive a change of the element itself, and a change that the layout does not see. -/
theorem Linked.update (h : d.Linked b.element?) (hb : d.Hosts b) {f : Node → Node}
    (hd' : (d.update n f).Framed) (hparent : ∀ x, (f x).parent = x.parent)
    (hlink : ∀ x, (f x).offsetParent = x.offsetParent) (htag : ∀ x, (f x).tag = x.tag)
    (hlook : b.element? = some n ∨ ∀ x, (f x).style = x.style) :
    (d.update n f).Linked b.element? := by
  refine h.of_same hb.framed hd' (fun e => hb.ne_of_element) fun m hm => ?_
  refine ⟨(parent?_update hparent).symm, ?_, (offsetLink?_update hlink).symm⟩
  rw [look?, look?, node?_update]
  split
  · rename_i hnm
    subst hnm
    -- the element itself is not outside of itself
    rcases hlook with he | hstyle
    · exact absurd .refl (hm.2 n he)
    · cases d.node? n with
      | none => rfl
      | some x => simp [htag, hstyle]
  · rfl

theorem Hosts.extends_lay (h : d.Hosts b) (hid : ∀ t ∈ s.flat, t.attributes.get? "id" = none) :
    Extends b d (d.lay s) := by
  have hattribute : ∀ m, m < d.size → ∀ k, (d.lay s).attribute? m k = d.attribute? m k :=
    fun m hm k => by rw [attribute?, node?_lay_old hm, attribute?]
  constructor
  case size => rw [size_lay]; exact Nat.le_add_right _ _
  case parent => exact fun m hm => parent?_lay_old hm
  case children =>
    intro m hm
    rw [children_lay_old hm]
    exact h.framed.wellFormed.filter_children
  case tag => exact fun m hm => tag?_lay_old hm
  case id => exact fun m hm => hattribute m hm "id"
  case cssClass => exact fun m hm => hattribute m hm "class"
  case id_new =>
    intro m hm h
    rw [attribute?_lay_new hm hid] at h
    cases h
  case cssClass_new =>
    intro m e hm he hp
    obtain ⟨parts, hparts, rfl⟩ := Option.map_eq_some_iff.mp he
    exact absurd ((h.carries parts hparts).element_lt h.framed)
      (Nat.not_lt_of_le (parent?_lay_new hm hp))

theorem Linked.lay (h : d.Linked b.element?) (hb : d.Hosts b) (hd' : (d.lay s).Framed) :
    (d.lay s).Linked b.element? :=
  h.of_old hb.framed hd' (fun _ => hb.ne_of_element)
    (fun _ hm => lt_of_attached_lay hm.1 hb.framed.root_lt) (fun _ hm => parent?_lay_old hm)
    (fun _ hm => face?_lay_old hm) fun _ hm => offsetLink?_lay_old hm

/-- A grafted tree, in front of or behind the older children. -/
theorem Hosts.extends_graft (h : d.Hosts b) {place : List NodeId → List NodeId}
    (hplace : (place (d.children p)).filter (· < d.size) = d.children p)
    (hid : ∀ t ∈ flatAll [s], t.attributes.get? "id" = none)
    (hclass : b.element? = some p → s.attributes.get? "class" = none) :
    Extends b d (d.graft p place [s]) := by
  constructor
  case size => rw [size_graft]; exact Nat.le_add_right _ _
  case parent => exact fun m hm => parent?_graft_old hm
  case children => exact fun m hm => h.framed.wellFormed.filter_children_graft hplace hm
  case tag => intro m hm; rw [tag?_eq_face, tag?_eq_face, face?_graft_old hm]
  case id => exact fun m hm => attribute?_graft_old hm "id"
  case cssClass => exact fun m hm => attribute?_graft_old hm "class"
  case id_new => intro m hm; rw [attribute?_graft_new hm hid]; simp
  case cssClass_new =>
    intro m e hm he hp
    have hlt : e < d.size := by
      obtain ⟨parts, hparts, rfl⟩ := Option.map_eq_some_iff.mp he
      exact (h.carries parts hparts).element_lt h.framed
    rcases parent?_graft_one hm hp with ⟨rfl, rfl⟩ | hge
    · rw [attribute?_eq_face, face?_graft_first]
      exact hclass he
    · exact absurd hlt (Nat.not_lt_of_le hge)

theorem Hosts.extends_graftLast (h : d.Hosts b) (p : NodeId)
    (hid : ∀ t ∈ flatAll [s], t.attributes.get? "id" = none)
    (hclass : b.element? = some p → s.attributes.get? "class" = none) :
    Extends b d (d.graftLast p [s]) :=
  h.extends_graft (h.framed.wellFormed.filter_append_places p s) hid hclass

theorem parent?_graft_first (d : Document) (p : NodeId) (place : List NodeId → List NodeId)
    (s : NodeSpec) : (d.graft p place [s]).parent? d.size = some p := by
  have hnode := node?_graft_new d p place [s] 0
  rw [Nat.add_zero, NodeSpec.nodesAll_singleton, NodeSpec.nodes_eq] at hnode
  rw [parent?_of_node hnode]; rfl

/-- Links outlive a graft below the element. -/
theorem Linked.graft {e : NodeId} (h : d.Linked (some e)) (hd : d.Framed)
    {place : List NodeId → List NodeId} (hd' : (d.graft p place [s]).Framed)
    (he : e ≠ root ∧ e ≠ body) (hp : d.AtOrAbove e p) (hlt : p < d.size) :
    (d.graft p place [s]).Linked (some e) := by
  refine h.of_old hd hd' (fun _ hE => Option.some.inj hE ▸ he) (fun m hm => ?_)
    (fun _ hm => parent?_graft_old hm) (fun _ hm => face?_graft_old hm)
    fun _ hm => offsetLink?_graft_old hm
  by_contra hge
  have hsame : SameAbove (· < d.size) d (d.graft p place [s]) :=
    sameAbove_old hd.wellFormed fun _ hm => parent?_graft_old hm
  refine hm.2 e rfl ((atOrAbove_graft_new hm.1 hd.root_lt (Nat.le_of_not_lt hge)).trans ?_)
  exact .head (parent?_graft_first d p place s) (hsame.atOrAbove hlt hp)

theorem filter_insertAhead {mark new : NodeId} {keep : NodeId → Bool} (hnew : keep new = false) :
    ∀ l : List NodeId, (insertAhead mark new l).filter keep = l.filter keep
  | [] => by simp [insertAhead, hnew]
  | a :: l => by
    rw [insertAhead]
    split
    · rw [List.filter_cons_of_neg (by simp [hnew])]
    · rw [List.filter_cons, List.filter_cons, filter_insertAhead hnew l]

theorem WellFormed.extends_relayout (h : WellFormed d) : Extends b d d.relayout := by
  have hface : ∀ m, d.size ≤ m → d.relayout.face? m = none := fun m hm => by
    rw [face?_relayout, face?, node?_eq_none_iff.mpr hm]; rfl
  have hattribute : ∀ m k, d.relayout.attribute? m k = d.attribute? m k := fun m k => by
    rw [attribute?_eq_face, attribute?_eq_face, face?_relayout]
  constructor
  case size => exact Nat.le_of_eq (size_relayout d).symm
  case parent => exact fun m _ => parent?_relayout d m
  case children => intro m _; rw [children_relayout]; exact h.filter_children
  case tag => intro m _; rw [tag?_eq_face, tag?_eq_face, face?_relayout]
  case id => exact fun m _ => hattribute m "id"
  case cssClass => exact fun m _ => hattribute m "class"
  case id_new => intro m hm; rw [attribute?_eq_face, hface m hm]; simp
  case cssClass_new => intro m e hm _ _; rw [attribute?_eq_face, hface m hm]; rfl

/-! ### Clearing and filling the region -/

theorem above_of_cleared (h : WellFormed d) {region a : NodeId}
    (hr : (Balloon.cleared d region).Above a n) : d.Above a n := by
  refine TransGen.mono (fun x y hxy => ?_) _ _ hr
  rw [Step, parent?_cleared h] at hxy
  split at hxy
  · cases hxy
  · exact hxy

theorem atOrAbove_cleared (h : WellFormed d) {region a : NodeId} (hn : ¬ d.Above region n)
    (hr : d.AtOrAbove a n) : (Balloon.cleared d region).AtOrAbove a n := by
  induction hr using ReflTransGen.head_induction_on with
  | refl => exact .refl
  | @head n q hs _ ih =>
    refine .head ?_ (ih fun hq => hn (.head hs hq))
    rw [Step, parent?_cleared h, if_neg fun hp : d.parent? n = some region => hn (.single hp)]
    exact hs

theorem Hosts.cleared (h : d.Hosts b) (hparts : b.parts = some parts) :
    (Balloon.cleared d parts.textRegion).Hosts b := by
  have hwf := h.framed.wellFormed
  have hc := h.carries parts hparts
  have hroot : ¬ d.Above parts.textRegion root := fun hr =>
    hc.region_ne_root hwf (hwf.eq_root_of_above hr.to_reflTransGen)
  have hattribute : ∀ m k, (Balloon.cleared d parts.textRegion).attribute? m k =
      d.attribute? m k := fun m k => by
    rw [attribute?_eq_face, attribute?_eq_face, face?_cleared hwf]
  have hfound := elementById?_cleared hwf b.id h.framed.root_lt hroot fun e he => by
    rcases h.finds with hf | ⟨e', _, he', _, _, hout⟩
    · have hE : b.element? = some e := hf.symm.trans he
      rw [element?, hparts] at hE
      cases hE
      exact hc.not_above hwf
    · cases he.symm.trans he'
      exact hout parts hparts
  refine ⟨h.framed.cleared (hc.region_ne_root hwf), fun parts' hparts' => ?_, ?_⟩
  · cases hparts.symm.trans hparts'
    refine ⟨hc.ne_root, hc.ne_body, atOrAbove_cleared hwf (hc.not_above hwf) hc.attached, ?_⟩
    rw [children_cleared hwf, if_neg (Ne.symm (hc.region_ne hwf)), ← hc.region]
    congr 1
    funext n
    exact hasClass_of_attribute (hattribute n "class")
  · rcases h.finds with hf | ⟨e, t, he, ht, hv, hout⟩
    · exact .inl (hfound.trans hf)
    · exact .inr ⟨e, t, hfound.trans he, by rw [tag?_cleared hwf, ht], hv,
        fun parts' hparts' hr => hout parts' hparts' (above_of_cleared hwf hr)⟩

theorem Linked.cleared (h : d.Linked b.element?) (hb : d.Hosts b) (hparts : b.parts = some parts) :
    (Balloon.cleared d parts.textRegion).Linked b.element? := by
  have hwf := hb.framed.wellFormed
  refine h.of_same hb.framed (hb.cleared hparts).framed (fun _ => hb.ne_of_element) fun n hn => ?_
  rw [look?_eq_face, look?_eq_face, face?_cleared hwf, offsetLink?_cleared hwf, parent?_cleared hwf]
  refine ⟨?_, rfl, rfl⟩
  split
  · rename_i hp
    -- what was taken out is not attached any more
    rcases hn.1.cases_head with rfl | ⟨q, hq, -⟩
    · rw [hwf.root_top] at hp; cases hp
    · rw [Step, parent?_cleared hwf, if_pos hp] at hq; cases hq
  · rfl

/-! ### A new balloon -/

theorem elementSpec_flat (id cssClass : String) : flatAll [elementSpec id cssClass] =
    [elementSpec id cssClass, bandSpec "top", regionSpec, bandSpec "bottom"] := rfl

theorem hasClass_graft_new {place : List NodeId → List NodeId} {ss : List NodeSpec} {i : Nat}
    {t : NodeSpec} (ht : (flatAll ss)[i]? = some t) (cssClass : String) :
    hasClass (d.graft p place ss) (d.size + i) cssClass =
      match t.attributes.get? "class" with
      | none => false
      | some classes => (Text.words classes.toList).contains cssClass.toList := by
  rw [hasClass, attribute?_eq_face, face?_graft_new, ht]; rfl

/-- A region that is put into an element without one is the region found there. -/
theorem WellFormed.region_graftLast (h : WellFormed d) (hlt : n < d.size)
    (hregion : ((d.children n).find? fun m => hasClass d m "text") = none) :
    (((d.graftLast n [regionSpec]).children n).find? fun m =>
      hasClass (d.graftLast n [regionSpec]) m "text") = some d.size := by
  have hold : ((d.children n).find? fun m => hasClass (d.graftLast n [regionSpec]) m "text") =
      none := by
    refine List.find?_eq_none.mpr fun m hm => ?_
    rw [graftLast, hasClass_of_attribute (attribute?_graft_old (h.child_lt n m hm) "class")]
    exact List.find?_eq_none.mp hregion m hm
  have hnew : hasClass (d.graftLast n [regionSpec]) d.size "text" = true :=
    (hasClass_graft_new (i := 0) rfl "text").trans (by decide)
  rw [children_graftLast hlt, List.find?_append, hold]
  exact List.find?_cons_of_pos (p := fun m => hasClass _ m "text") hnew

/-- The region of an element that was just built. -/
theorem region_built (d : Document) (id cssClass : String) :
    (((d.graftLast body [elementSpec id cssClass]).children d.size).find? fun n =>
      hasClass (d.graftLast body [elementSpec id cssClass]) n "text") = some (d.size + 2) := by
  have hnode := node?_graft_new d body (· ++ places d.size [elementSpec id cssClass])
    [elementSpec id cssClass] 0
  have hchildren : (d.graftLast body [elementSpec id cssClass]).children d.size =
      [d.size + 1, d.size + 2, d.size + 3] := children_of_node hnode
  have htop : hasClass (d.graftLast body [elementSpec id cssClass]) (d.size + 1) "text" =
      false := by
    refine (hasClass_graft_new (t := bandSpec "top") rfl "text").trans ?_
    decide
  have htext : hasClass (d.graftLast body [elementSpec id cssClass]) (d.size + 2) "text" =
      true := by
    refine (hasClass_graft_new (t := regionSpec) rfl "text").trans ?_
    decide
  rw [hchildren, List.find?_cons_of_neg (by simp [htop]),
    List.find?_cons_of_pos (p := fun n => hasClass _ n "text") htext]

/-- A balloon that was just built is the one that the page has from then on. -/
theorem Hosts.build (h : d.Hosts b) (hparts : b.parts = none)
    (hd' : (d.graftLast body [elementSpec b.id b.cssClass]).Framed) :
    (d.graftLast body [elementSpec b.id b.cssClass]).Hosts
      { b with parts := some ⟨d.size, d.size + 2⟩ } := by
  have hwf := h.framed.wellFormed
  have hbody := h.framed.body_lt
  have hsame : SameAbove (· < d.size) d (d.graftLast body [elementSpec b.id b.cssClass]) :=
    sameAbove_old hwf fun _ hm => parent?_graft_old hm
  have hfound := h.framed.elementById?_graftLast b.id hd'
    (show (elementSpec b.id b.cssClass).attributes.get? "id" = some b.id by
      rw [elementSpec, OrderedMap.get?_insert, if_neg (by decide), OrderedMap.get?_insert,
        if_pos rfl])
  refine ⟨hd', fun parts hparts' => ?_, ?_⟩
  · cases hparts'
    refine ⟨Nat.ne_of_gt h.framed.root_lt, Nat.ne_of_gt hbody, ?_, region_built d _ _⟩
    exact .head (parent?_graft_first d body _ _) (.single hd'.parent?_body)
  · rw [Finds, hfound]
    rcases h.finds with hf | ⟨e, t, he, ht, hv, -⟩
    · rw [element?, hparts] at hf
      exact .inl (by rw [hf]; rfl)
    · have hlt := lt_size_of_tag ht
      refine .inr ⟨e, t, by rw [he]; rfl, ?_, hv, fun parts hparts' hr => ?_⟩
      · rw [tag?_eq_face, graftLast, face?_graft_old hlt, ← tag?_eq_face, ht]
      · cases hparts'
        -- what lies above an older node is older
        have hr := (hsame.symm.above hlt hr).to_reflTransGen
        have hlt' := hwf.acyclic.lt_of_reaches hlt hr
        exact absurd hlt' (Nat.not_lt_of_le (Nat.le_add_right _ _))

theorem Linked.build (h : d.Linked none) (hd : d.Framed) (hd' : (d.graftLast body [s]).Framed) :
    (d.graftLast body [s]).Linked (some d.size) := by
  have hweak : d.Linked (some d.size) := fun n hn => h n ⟨hn.1, fun _ he => nomatch he⟩
  refine hweak.of_old hd hd' (fun e he => ?_) (fun n hn => ?_)
    (fun _ hm => parent?_graft_old hm) (fun _ hm => face?_graft_old hm)
    fun _ hm => offsetLink?_graft_old hm
  · cases he
    exact ⟨Nat.ne_of_gt hd.root_lt, Nat.ne_of_gt hd.body_lt⟩
  · by_contra hge
    exact hn.2 d.size rfl (atOrAbove_graft_new hn.1 hd.root_lt (Nat.le_of_not_lt hge))

end Document

end FormPage
