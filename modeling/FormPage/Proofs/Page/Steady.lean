import FormPage.Proofs.Page.Course
import FormPage.Proofs.Page.Matching

/-!
What does not drift in a session. Outside of the balloon no change touches the tree, what the layout
looks at, or the boxes, and the first child of a node stays its first child (`Steady`). The links
there are the ones that the tree and the styles give, so that they stay too, and with them the place
that the balloon has next to a node whose first child lies there (`Steady.balloonPlacement?_eq`).
-/

namespace FormPage

open Document Balloon Relation

variable {d d' d₀ : Document} {b b' b₀ : Balloon} {n c : NodeId}

namespace Document

/-! ### What stays outside of the balloon -/

/-- From a document with its balloon to a later one: what lies outside of the balloon stays there,
with its parent, its looks and its box, and stays the first child where it is one. -/
structure Steady (d : Document) (b : Balloon) (d' : Document) (b' : Balloon) : Prop where
  size_le : d.size ≤ d'.size
  outside : ∀ n, d.Outside b.element? n → d'.Outside b'.element? n
  parent : ∀ n, d.Outside b.element? n → d'.parent? n = d.parent? n
  look : ∀ n, d.Outside b.element? n → d'.look? n = d.look? n
  geometry : ∀ n, d.Outside b.element? n → d'.geometry? n = d.geometry? n
  first : ∀ n c, d.firstChild? n = some c → d.Outside b.element? c → d'.firstChild? n = some c

theorem Steady.refl (d : Document) (b : Balloon) : Steady d b d b :=
  ⟨Nat.le_refl _, fun _ h => h, fun _ _ => rfl, fun _ _ => rfl, fun _ _ => rfl, fun _ _ h _ => h⟩

theorem Steady.trans (h : Steady d₀ b₀ d b) (h' : Steady d b d' b') : Steady d₀ b₀ d' b' where
  size_le := Nat.le_trans h.size_le h'.size_le
  outside n hn := h'.outside n (h.outside n hn)
  parent n hn := (h'.parent n (h.outside n hn)).trans (h.parent n hn)
  look n hn := (h'.look n (h.outside n hn)).trans (h.look n hn)
  geometry n hn := (h'.geometry n (h.outside n hn)).trans (h.geometry n hn)
  first n c hn hc := h'.first n c (h.first n c hn hc) (h.outside c hc)

theorem Outside.lt_size (h : d.Outside b.element? n) (hd : d.Framed) : n < d.size :=
  hd.lt_size h.1

/-- What keeps its parent stays outside, if no older node becomes the element. -/
theorem Steady.of_same (hd : d.Framed) (hsize : d.size ≤ d'.size)
    (helement : ∀ e, b'.element? = some e → b.element? = some e ∨ d.size ≤ e)
    (hparent : ∀ n, d.Outside b.element? n → d'.parent? n = d.parent? n)
    (hlook : ∀ n, d.Outside b.element? n → d'.look? n = d.look? n)
    (hgeometry : ∀ n, d.Outside b.element? n → d'.geometry? n = d.geometry? n)
    (hfirst : ∀ n c, d.firstChild? n = some c → d.Outside b.element? c →
      d'.firstChild? n = some c) : Steady d b d' b' := by
  have hsame : SameAbove (d.Outside b.element?) d d' :=
    ⟨fun n hn => (hparent n hn).symm, fun n q hn hq => hd.wellFormed.outside_parent hn hq⟩
  refine ⟨hsize, fun n hn => ⟨hsame.atOrAbove hn hn.1, fun e he hr => ?_⟩, hparent, hlook,
    hgeometry, hfirst⟩
  have hr := hsame.symm.atOrAbove hn hr
  rcases helement e he with he | hge
  · exact hn.2 e he hr
  · exact absurd (hd.wellFormed.acyclic.lt_of_reaches (hn.lt_size hd) hr) (Nat.not_lt_of_le hge)

theorem lt_size_of_firstChild (h : d.firstChild? n = some c) : n < d.size :=
  lt_size_of_child (List.mem_of_head? h)

theorem Settled.steady_lay (h : d.Settled b) (s : NodeSpec) : Steady d b (d.lay s) b := by
  have hd := h.hosts.framed
  refine .of_same hd ?_ (fun _ he => .inl he) (fun n hn => parent?_lay_old (hn.lt_size hd))
    (fun n hn => ?_) (fun n hn => ?_) fun n c hn _ => ?_
  · rw [size_lay]
    exact Nat.le_add_right _ _
  · rw [look?_eq_face, look?_eq_face, face?_lay_old (hn.lt_size hd)]
  · rw [geometry?_eq_face, geometry?_eq_face, face?_lay_old (hn.lt_size hd)]
  · rw [firstChild?, children_lay_old (lt_size_of_firstChild hn)]
    exact hn

/-- A graft that leaves the first child of its parent the first. -/
theorem Settled.steady_graft (h : d.Settled b) {p : NodeId} {place : List NodeId → List NodeId}
    {ss : List NodeSpec}
    (helement : ∀ e, b'.element? = some e → b.element? = some e ∨ d.size ≤ e)
    (hplace : ∀ c, d.firstChild? p = some c → (place (d.children p)).head? = some c) :
    Steady d b (d.graft p place ss) b' := by
  have hd := h.hosts.framed
  refine .of_same hd ?_ helement (fun n hn => parent?_graft_old (hn.lt_size hd))
    (fun n hn => ?_) (fun n hn => ?_) fun n c hn _ => ?_
  · rw [size_graft]
    exact Nat.le_add_right _ _
  · rw [look?_eq_face, look?_eq_face, face?_graft_old (hn.lt_size hd)]
  · rw [geometry?_eq_face, geometry?_eq_face, face?_graft_old (hn.lt_size hd)]
  · rw [firstChild?, children_graft_old (lt_size_of_firstChild hn)]
    split
    · rename_i hnp
      exact hplace c (hnp ▸ hn)
    · exact hn

theorem Settled.steady_graftLast (h : d.Settled b) {p : NodeId} {ss : List NodeSpec}
    (helement : ∀ e, b'.element? = some e → b.element? = some e ∨ d.size ≤ e) :
    Steady d b (d.graftLast p ss) b' := by
  refine h.steady_graft helement fun c hc => ?_
  rw [List.head?_append, show (d.children p).head? = some c from hc]
  rfl

/-- What is put ahead of a later child is not put first. -/
theorem head?_insertAhead {mark new : NodeId} : ∀ {l : List NodeId},
    (preceding mark l).isSome → (insertAhead mark new l).head? = l.head?
  | a :: b :: l, h => by
    rw [preceding] at h
    split at h
    · cases h
    · rename_i hne
      rw [insertAhead, if_neg hne]
      rfl

theorem Steady.relayout (h : Steady d b d' b') : Steady d b d'.relayout b' where
  size_le := by
    rw [size_relayout]
    exact h.size_le
  outside n hn := ⟨atOrAbove_relayout.mpr (h.outside n hn).1, fun e he hr =>
    (h.outside n hn).2 e he (atOrAbove_relayout.mp hr)⟩
  parent n hn := (parent?_relayout d' n).trans (h.parent n hn)
  look n hn := by
    rw [← h.look n hn, look?_eq_face, look?_eq_face, face?_relayout]
  geometry n hn := by
    rw [← h.geometry n hn, geometry?_eq_face, geometry?_eq_face, face?_relayout]
  first n c hn hc := by
    rw [firstChild?, children_relayout]
    exact h.first n c hn hc

/-- A change of what a node shows, of which the layout sees nothing outside of the balloon. -/
theorem Settled.steady_update (h : d.Settled b) {f : Node → Node}
    (hparent : ∀ x, (f x).parent = x.parent) (hchildren : ∀ x, (f x).children = x.children)
    (htag : ∀ x, (f x).tag = x.tag) (hgeometry : ∀ x, (f x).geometry = x.geometry)
    (hstyle : b.element? = some n ∨ ∀ x, (f x).style = x.style) :
    Steady d b (d.update n f) b := by
  refine .of_same h.hosts.framed (Nat.le_of_eq (size_update d n f).symm) (fun _ he => .inl he)
    (fun m _ => parent?_update hparent) (fun m hm => ?_)
    (fun m _ => bind_node?_update (·.geometry) hgeometry) fun m c hm _ => ?_
  · rcases hstyle with he | hstyle
    · have hne : n ≠ m := by
        rintro rfl
        exact hm.2 n he .refl
      rw [look?, node?_update, if_neg hne, look?]
    · exact map_node?_update (fun x => (x.tag, x.style)) fun x => by rw [htag, hstyle]
  · rw [firstChild?, children_update hchildren]
    exact hm

/-- What is taken out of the region lies inside of the balloon. -/
theorem Settled.steady_cleared (h : d.Settled b) {parts : BalloonParts}
    (hparts : b.parts = some parts) :
    Steady d b (Balloon.cleared d parts.textRegion) b := by
  have hd := h.hosts.framed
  have hwf := hd.wellFormed
  have helement : b.element? = some parts.element := by
    rw [element?, hparts]
    rfl
  have hregion : d.AtOrAbove parts.element parts.textRegion :=
    .single ((h.hosts.carries parts hparts).parent?_region hwf)
  have hout : ∀ m, d.Outside b.element? m → d.parent? m ≠ some parts.textRegion :=
    fun m hm hp => hm.2 _ helement (.head hp hregion)
  refine .of_same hd (Nat.le_of_eq (size_cleared hwf _).symm) (fun _ he => .inl he)
    (fun m hm => ?_) (fun m _ => ?_) (fun m _ => ?_) fun m c hm hc => ?_
  · rw [parent?_cleared hwf, if_neg (hout m hm)]
  · rw [look?_eq_face, look?_eq_face, face?_cleared hwf]
  · rw [geometry?_eq_face, geometry?_eq_face, face?_cleared hwf]
  · rw [firstChild?, children_cleared hwf, if_neg]
    · exact hm
    · rintro rfl
      exact hout c hc ((hwf.mem_children _ c).mp (List.mem_of_head? hm))

/-- No change touches what lies outside of the balloon. -/
theorem Changes.steady (h : d.Settled b) (hc : Changes d b d' b') : Steady d b d' b' := by
  cases hc with
  | lay s => exact h.steady_lay s
  | row s hparent _ hprevious _ =>
    refine (h.steady_graft (fun _ he => .inl he) fun c hc => ?_).relayout
    rw [previousSibling?, hparent, Option.bind_some] at hprevious
    rw [head?_insertAhead hprevious]
    exact hc
  | write n value =>
    exact h.steady_update (fun _ => rfl) (fun _ => rfl) (fun _ => rfl) (fun _ => rfl)
      (.inr fun _ => rfl)
  | restyle hn f =>
    exact h.steady_update (fun _ => rfl) (fun _ => rfl) (fun _ => rfl) (fun _ => rfl) (.inl hn)
  | clear hparts => exact h.steady_cleared hparts
  | fill hparts text => exact h.steady_graftLast fun _ he => .inl he
  | build hparts =>
    refine h.steady_graftLast fun e he => .inr ?_
    cases he
    exact Nat.le_refl _

theorem Course.steady (h : Course d₀ b₀ d b) : Steady d₀ b₀ d b :=
  h.invariant (fun _ _ _ _ hd hc _ hs => hs.trans (hc.steady hd)) (Steady.refl d₀ b₀)

/-! ### The place of the balloon -/

theorem Steady.layoutParent?_eq (h : Steady d b d' b') (hd : d.Settled b) (hd' : d'.Settled b')
    (hn : d.Outside b.element? n) : d'.layoutParent? n = d.layoutParent? n :=
  hd'.hosts.framed.layoutParent?_of_same hd.hosts.framed (fun _ => hd.hosts.ne_of_element)
    (fun m hm => ⟨h.parent m hm, h.look m hm⟩) hn

theorem Steady.offsetParent?_eq (h : Steady d b d' b') (hd : d.Settled b) (hd' : d'.Settled b')
    (hn : d.Outside b.element? n) : d'.offsetParent? n = d.offsetParent? n := by
  rw [hd'.offsetParent?_eq (h.outside n hn), hd.offsetParent?_eq hn, h.layoutParent?_eq hd hd' hn]

theorem Steady.boxes_eq (h : Steady d b d' b') (hd : d.Settled b) (hd' : d'.Settled b')
    (hn : d.Outside b.element? n) :
    (d'.offsetChain n).map d'.box = (d.offsetChain n).map d.box := by
  have hwf := hd.hosts.framed.wellFormed
  have hwf' := hd'.hosts.framed.wellFormed
  rw [hd.offsetChain_eq hn, hd'.offsetChain_eq (h.outside n hn)]
  have hrel := path_rel (w := fun m m' => d.Outside b.element? m ∧ m = m')
    hwf.acyclic_layoutParent hwf'.acyclic_layoutParent (fun m m' hm => ?_) ⟨hn, rfl⟩
  · refine (map_eq_of_rel hrel fun m _ m' hm => ?_).symm
    obtain ⟨hm, rfl⟩ := hm
    rw [box, box, h.geometry m hm]
  · obtain ⟨hm, rfl⟩ := hm
    rw [h.layoutParent?_eq hd hd' hm]
    cases ha : d.layoutParent? m with
    | none => exact .none
    | some a => exact .some ⟨hwf.outside_of_above hm (layoutParent?_above hwf ha), rfl⟩

/-- A node whose first child lies outside of the balloon keeps its place of the balloon. -/
theorem Steady.balloonPlacement?_eq (h : Steady d b d' b') (hd : d.Settled b)
    (hd' : d'.Settled b') (hn : d.firstChild? n = some c) (hc : d.Outside b.element? c)
    (nudge : Nudge) : d'.balloonPlacement? n nudge = d.balloonPlacement? n nudge := by
  have hbox : d'.box c = d.box c := by rw [box, box, h.geometry c hc]
  simp only [balloonPlacement?, hn, h.first n c hn hc, Option.bind_eq_bind, Option.bind_some,
    h.offsetParent?_eq hd hd' hc, h.boxes_eq hd hd' hc, hbox]

end Document

end FormPage
