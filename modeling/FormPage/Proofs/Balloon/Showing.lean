import FormPage.Proofs.Balloon.Edits

/-!
Showing the balloon, step by step. The nodes of the balloon are the ones that it has, or a newly
built tree; their region is then emptied and filled, unless it can hold nothing; and the element is
moved. Every step keeps the invariant of the balloon and the links outside of it.
-/

namespace FormPage

open Document Balloon Relation
open NodeSpec (flatAll)

variable {d d' d₀ : Document} {b b₀ : Balloon} {n target : NodeId} {parts : BalloonParts} {t : Tag}
  {place : Placement} {text : String}

/-- What holds of the document and the balloon of a page after it was built and after every
event. -/
structure Document.Settled (d : Document) (b : Balloon) : Prop where
  hosts : d.Hosts b
  linked : d.Linked b.element?

/-! ### Having the nodes -/

theorem Document.sound_kept : Kept fun d => WellFormed d ∧ ElementsBare d := fun k _ h =>
  ⟨k.run_wellFormed h.1, k.run_elementsBare h.2⟩

theorem Document.Framed.sound (h : d.Framed) : WellFormed d ∧ ElementsBare d :=
  ⟨h.wellFormed, h.bare⟩

theorem Edit.Keeps.result {α : Type} {P : Document → Prop} {e : Edit α} (he : e.Keeps P) (h : P d)
    {r : Except TreeError α} (heq : d.edit e = (r, d')) : P d' := by
  have hd := he d h
  rwa [heq] at hd

/-- From a document and its balloon to later ones: the document is extended, the region of the
balloon is cleared, or a balloon is built. -/
inductive Document.Leads (d₀ : Document) (b₀ : Balloon) : Document → Balloon → Prop
  | refl (h : d₀.Settled b₀) : Leads d₀ b₀ d₀ b₀
  | extend {d d' : Document} {b : Balloon} (h : Leads d₀ b₀ d b) (he : Extends b d d')
      (hs : d'.Settled b) : Leads d₀ b₀ d' b
  | clear {d : Document} {b : Balloon} {parts : BalloonParts} (h : Leads d₀ b₀ d b)
      (hparts : b.parts = some parts) : Leads d₀ b₀ (cleared d parts.textRegion) b
  | build {d : Document} {b : Balloon} (h : Leads d₀ b₀ d b) (hparts : b.parts = none) :
      Leads d₀ b₀ (d.graftLast body [elementSpec b.id b.cssClass])
        { b with parts := some ⟨d.size, d.size + 2⟩ }

/-- A document in which the balloon was just built. -/
theorem Document.Settled.build (h : d.Settled b) (hparts : b.parts = none) :
    (d.graftLast body [elementSpec b.id b.cssClass]).Settled
      { b with parts := some ⟨d.size, d.size + 2⟩ } := by
  have hframed := h.hosts.framed
  obtain ⟨hwf, hbare⟩ := (keeps_build sound_kept b.id b.cssClass).result hframed.sound
    (edit_build_of_body hframed.wellFormed hframed.tag?_body b.id b.cssClass)
  have hframed' := hframed.graft (Nat.ne_of_gt (by decide)) hwf hbare
  have hlinked := h.linked
  rw [element?, hparts] at hlinked
  exact ⟨h.hosts.build hparts hframed', hlinked.build hframed hframed'⟩

theorem Document.Settled.cleared (h : d.Settled b) (hparts : b.parts = some parts) :
    (Balloon.cleared d parts.textRegion).Settled b :=
  ⟨h.hosts.cleared hparts, h.linked.cleared h.hosts hparts⟩

/-- The invariant holds wherever steps lead to. -/
theorem Document.Leads.settled (h : Leads d₀ b₀ d b) : d.Settled b := by
  induction h with
  | refl h => exact h
  | extend _ _ hs _ => exact hs
  | clear _ hparts ih => exact ih.cleared hparts
  | build _ hparts ih => exact ih.build hparts

/-- Steps change no more of the balloon than its nodes. -/
theorem Document.Leads.make (h : Leads d₀ b₀ d b) : ∃ parts, b = { b₀ with parts := parts } := by
  induction h with
  | refl _ => exact ⟨b₀.parts, rfl⟩
  | extend _ _ _ ih => exact ih
  | clear _ _ ih => exact ih
  | build _ _ ih =>
    obtain ⟨parts, rfl⟩ := ih
    exact ⟨_, rfl⟩

theorem Document.Leads.trans (h : Leads d₀ b₀ d b) {d₁ : Document} {b₁ : Balloon}
    (h' : Leads d b d₁ b₁) : Leads d₀ b₀ d₁ b₁ := by
  induction h' with
  | refl _ => exact h
  | extend _ he hs ih => exact ih.extend he hs
  | clear _ hparts ih => exact ih.clear hparts
  | build _ hparts ih => exact ih.build hparts

/-- An attempt to adopt a void element leaves a region without a place. -/
theorem Document.Settled.lay_region (h : d.Settled b) (ht : d.tag? n = some t)
    (hv : t.isVoid = true) : Leads d b (d.lay regionSpec) b := by
  obtain ⟨hwf, hbare⟩ := (keeps_appendTextRegion sound_kept n).result h.hosts.framed.sound
    (edit_appendTextRegion_of_void ht hv)
  have hframed := h.hosts.framed.lay hwf hbare
  have hextends := h.hosts.extends_lay (s := regionSpec) (by decide)
  exact .extend (.refl h) hextends
    ⟨h.hosts.of_extends hframed hextends, h.linked.lay h.hosts hframed⟩

/-- A balloon that has its nodes keeps them. -/
theorem Balloon.ensure_of_parts (hparts : b.parts = some parts) :
    b.ensure d = (.ok parts, b, d) := by
  simp only [ensure, adopt, hparts, Option.isSome_some, if_true]

/-- A balloon that is not found is built. -/
theorem Document.Framed.ensure_of_none (h : d.Framed) (hparts : b.parts = none)
    (hnone : d.elementById? b.id = none) :
    b.ensure d = (.ok ⟨d.size, d.size + 2⟩, { b with parts := some ⟨d.size, d.size + 2⟩ },
      d.graftLast body [elementSpec b.id b.cssClass]) := by
  have hadopt : b.adopt d = (false, b, d) := by simp [adopt, hparts, hnone]
  simp only [ensure, hadopt, hparts, edit_build_of_body h.wellFormed h.tag?_body]

/-- A balloon is also built where the reserved id leads to a void element, after an attempt to give
that a region. -/
theorem Document.Settled.ensure_of_void (h : d.Settled b) (hparts : b.parts = none)
    (hfound : d.elementById? b.id = some n) (ht : d.tag? n = some t) (hv : t.isVoid = true) :
    b.ensure d = (.ok ⟨(d.lay regionSpec).size, (d.lay regionSpec).size + 2⟩,
      { b with parts := some ⟨(d.lay regionSpec).size, (d.lay regionSpec).size + 2⟩ },
      (d.lay regionSpec).graftLast body [elementSpec b.id b.cssClass]) := by
  have hframed := (h.lay_region ht hv).settled.hosts.framed
  have hchildren := h.hosts.framed.wellFormed.void_empty n t ht hv
  have hadopt : b.adopt d = (false, b, d.lay regionSpec) := by
    simp [adopt, hparts, hfound, hchildren, edit_appendTextRegion_of_void ht hv]
  simp only [ensure, hadopt, hparts, edit_build_of_body hframed.wellFormed hframed.tag?_body]

/-- Having the nodes of a balloon: the ones that it has, or new ones. -/
theorem Document.Settled.ensure (h : d.Settled b) : ∃ parts d',
    b.ensure d = (.ok parts, { b with parts := some parts }, d') ∧
      Leads d b d' { b with parts := some parts } := by
  cases hparts : b.parts with
  | some parts =>
    have hb : { b with parts := some parts } = b := by rw [← hparts]
    exact ⟨parts, d, by rw [hb, ensure_of_parts hparts], by rw [hb]; exact .refl h⟩
  | none =>
    rcases h.hosts.finds with hf | ⟨e, t, hf, ht, hv, -⟩
    · rw [element?, hparts] at hf
      exact ⟨_, _, h.hosts.framed.ensure_of_none hparts hf, .build (.refl h) hparts⟩
    · exact ⟨_, _, h.ensure_of_void hparts hf ht hv, .build (h.lay_region ht hv) hparts⟩

/-! ### Filling the region -/

/-- The document with a text in the region, in place of what was there. -/
def Balloon.filled (d : Document) (region : NodeId) (text : String) : Document :=
  (cleared d region).graftLast region [textSpec text]

theorem Balloon.get?_textSpec {s : NodeSpec} (hs : s ∈ flatAll [textSpec text]) (k : String) :
    s.attributes.get? k = none := by
  obtain rfl := List.mem_singleton.mp (show s ∈ [textSpec text] from hs)
  rfl

theorem Document.Settled.filled (h : d.Settled b) (hparts : b.parts = some parts)
    (ht : d.tag? parts.textRegion = some t) (hv : t.isVoid = false) (text : String) :
    Leads d b (Balloon.filled d parts.textRegion text) b := by
  have hd := h.hosts.framed
  obtain ⟨hwf, hbare⟩ := (keeps_fill sound_kept _ text).result hd.sound
    (edit_fill hd.wellFormed ht hv text)
  have hc := h.cleared hparts
  have hcarries := hc.hosts.carries parts hparts
  have hwfc := hc.hosts.framed.wellFormed
  have helement : b.element? = some parts.element := by rw [element?, hparts]; rfl
  have hlinkedc := hc.linked
  rw [helement] at hlinkedc
  have hframed := hc.hosts.framed.graft (hcarries.region_ne_root hwfc) hwf hbare
  have hregion : (Balloon.cleared d parts.textRegion).AtOrAbove parts.element
      parts.textRegion := .single (hcarries.parent?_region hwfc)
  have hextends := hc.hosts.extends_graftLast (s := textSpec text) parts.textRegion
    (fun s hs => get?_textSpec hs "id") fun _ => rfl
  have hlinked := hlinkedc.graft hc.hosts.framed hframed (hc.hosts.ne_of_element helement) hregion
    (hcarries.region_lt hwfc)
  rw [← helement] at hlinked
  exact .extend (.clear (.refl h) hparts) hextends ⟨hc.hosts.of_extends hframed hextends, hlinked⟩

/-- What was cleared for nothing, before a region that can hold no text. -/
theorem Document.Settled.cleared_void (h : d.Settled b) (hparts : b.parts = some parts)
    (ht : d.tag? parts.textRegion = some t) (hv : t.isVoid = true) (text : String) :
    Leads d b ((Balloon.cleared d parts.textRegion).lay (textSpec text)) b := by
  have hd := h.hosts.framed
  obtain ⟨hwf, hbare⟩ := (keeps_fill sound_kept _ text).result hd.sound
    (edit_fill_void hd.wellFormed ht hv text)
  have hc := h.cleared hparts
  have hframed := hc.hosts.framed.lay hwf hbare
  have hextends := hc.hosts.extends_lay (s := textSpec text) fun s hs =>
    get?_textSpec (List.mem_append_left [] hs) "id"
  exact .extend (.clear (.refl h) hparts) hextends
    ⟨hc.hosts.of_extends hframed hextends, hc.linked.lay hc.hosts hframed⟩

/-! ### Moving and hiding the element -/

/-- A change of the style of the element keeps all that is said of a balloon. -/
theorem Document.Settled.restyle (h : d.Settled b) (hn : b.element? = some n) (f : Style → Style) :
    Leads d b (d.updateStyle n f) b := by
  have hd := h.hosts.framed
  have hframed : (d.updateStyle n f).Framed :=
    hd.update (h.hosts.ne_of_element hn) (wellFormed_kept.updateStyle hd.wellFormed n f)
      (elementsBare_kept.updateStyle hd.bare n f) fun _ => rfl
  have hextends : Extends b d (d.updateStyle n f) :=
    h.hosts.extends_update (fun _ => rfl) (fun _ => rfl) (fun _ => rfl) fun _ _ _ => rfl
  exact .extend (.refl h) hextends ⟨h.hosts.of_extends hframed hextends,
    h.linked.update h.hosts hframed (fun _ => rfl) (fun _ => rfl) (fun _ => rfl) (.inl hn)⟩

theorem Document.Settled.hide (h : d.Settled b) : Leads d b (b.hide d) b := by
  rw [Balloon.hide]
  split
  · exact .refl h
  · rename_i hn
    exact h.restyle hn _

/-- The style of an element that is shown at a place. -/
def Balloon.placed (place : Placement) (s : Style) : Style :=
  { s with display := .block, left := some place.left, top := some place.top }

/-- A balloon that has no place changes nothing. -/
theorem Balloon.showAt_of_none (hplace : d.balloonPlacement? target b.nudge = none) :
    b.showAt d target text = (false, b, d) := by
  simp only [showAt, hplace]

/-- A balloon that has a place is filled and moved there. -/
theorem Document.Settled.showAt_of_some (h : d.Settled b) (text : String)
    (hplace : d.balloonPlacement? target b.nudge = some place) : ∃ parts d' t,
      b.ensure d = (.ok parts, { b with parts := some parts }, d') ∧
      Leads d b d' { b with parts := some parts } ∧ d'.tag? parts.textRegion = some t ∧
      b.showAt d target text =
        if t.isVoid then (false, { b with parts := some parts },
          (Balloon.cleared d' parts.textRegion).lay (textSpec text))
        else (true, { b with parts := some parts },
          (Balloon.filled d' parts.textRegion text).updateStyle parts.element (placed place)) := by
  obtain ⟨parts, d', he, hleads⟩ := h.ensure
  have hs := hleads.settled
  have hwf := hs.hosts.framed.wellFormed
  have hcarries := hs.hosts.carries parts rfl
  obtain ⟨t, ht⟩ : ∃ t, d'.tag? parts.textRegion = some t := by
    obtain ⟨x, hx⟩ := exists_node (hcarries.region_lt hwf)
    exact ⟨x.tag, by rw [tag?, hx]; rfl⟩
  refine ⟨parts, d', t, he, hleads, ht, ?_⟩
  cases hv : t.isVoid with
  | true => simp only [showAt, hplace, he, edit_fill_void hwf ht hv, if_true]
  | false =>
    have hfilled := (hs.filled rfl ht hv text).settled.hosts
    have hlt := (hfilled.carries parts rfl).element_lt hfilled.framed
    simp only [showAt, hplace, he, edit_fill hwf ht hv]
    rw [show (Balloon.cleared d' parts.textRegion).graftLast parts.textRegion [textSpec text] =
      Balloon.filled d' parts.textRegion text from rfl, contains_iff.mpr hlt]
    rfl

/-- Showing keeps all that is said of a balloon. -/
theorem Document.Settled.showAt (h : d.Settled b) (target : NodeId) (text : String) :
    Leads d b (b.showAt d target text).2.2 (b.showAt d target text).2.1 := by
  cases hplace : d.balloonPlacement? target b.nudge with
  | none => rw [showAt_of_none hplace]; exact .refl h
  | some place =>
    obtain ⟨parts, d', t, -, hleads, ht, he⟩ := h.showAt_of_some text hplace
    rw [he]
    cases hv : t.isVoid with
    | true => exact hleads.trans (hleads.settled.cleared_void rfl ht hv text)
    | false =>
      have hfilled := hleads.settled.filled rfl ht hv text
      exact (hleads.trans hfilled).trans (hfilled.settled.restyle rfl _)

/-! ### Looking for the element of a page that was just laid out -/

theorem Document.Framed.ne_of_elementById {id : String} (h : d.Framed)
    (hn : d.elementById? id = some n) : n ≠ root ∧ n ≠ body ∧ d.AtOrAbove root n := by
  have hid := List.find?_some hn
  have hmem := h.wellFormed.mem_descendants.mp (List.mem_of_find?_eq_some hn)
  refine ⟨?_, ?_, hmem.to_reflTransGen⟩
  · rintro rfl
    exact h.wellFormed.not_above_self _ hmem
  · rintro rfl
    have hbody : d.attribute? body "id" = none := by rw [attribute?_eq_face, h.body_face]; rfl
    rw [hbody] at hid
    cases of_decide_eq_true hid

/-- An element without a region that was given one. -/
theorem Document.settled_region (hd : d.Framed) (hlinked : d.Linked (some n))
    (hfound : d.elementById? b.id = some n) (hne : n ≠ root) (hnb : n ≠ body)
    (hattached : d.AtOrAbove root n)
    (hregion : ((d.children n).find? fun m => hasClass d m "text") = none)
    (ht : d.tag? n = some t) (hv : t.isVoid = false) :
    (d.graftLast n [regionSpec]).Settled { b with parts := some ⟨n, d.size⟩ } := by
  have hwf := hd.wellFormed
  have hlt := lt_size_of_tag ht
  obtain ⟨hwf', hbare'⟩ := (keeps_appendTextRegion sound_kept n).result hd.sound
    (edit_appendTextRegion_of_holder hwf ht hv)
  have hframed : (d.graftLast n [regionSpec]).Framed := hd.graft hne hwf' hbare'
  have hsame : SameAbove (· < d.size) d (d.graftLast n [regionSpec]) :=
    sameAbove_old hwf fun _ hm => parent?_graft_old hm
  refine ⟨⟨hframed, fun parts hparts => ?_, .inl ?_⟩, ?_⟩
  · cases hparts
    exact ⟨hne, hnb, hsame.atOrAbove hlt hattached, hwf.region_graftLast hlt hregion⟩
  · refine (elementById?_of_old hwf hframed.wellFormed hd.root_lt ?_
      (fun m hm => parent?_graft_old hm)
      (fun m hm => hwf.filter_children_graft (hwf.filter_append_places n _) hm)
      (fun m hm => attribute?_graft_old hm "id") fun m hm => ?_).trans hfound
    · rw [graftLast, size_graft]; exact Nat.le_add_right _ _
    · rw [graftLast, attribute?_graft_new hm (by decide)]; simp
  · exact hlinked.graft hd hframed ⟨hne, hnb⟩ .refl hlt

theorem Document.WellFormed.size_le_adopt (h : WellFormed d) (b : Balloon) :
    d.size ≤ (b.adopt d).2.2.size := by
  rcases adopt_cases h b with ⟨_, -, he⟩ | ⟨-, -, he⟩ |
    ⟨_, _, -, -, -, ⟨_, -, he⟩ | ⟨-, -, he⟩ | ⟨-, he⟩⟩
  · exact Nat.le_of_eq (by rw [he])
  · exact Nat.le_of_eq (by rw [he])
  · exact Nat.le_of_eq (by rw [he])
  · rw [he, graftLast, size_graft]; exact Nat.le_add_right _ _
  · rw [he, size_lay]; exact Nat.le_add_right _ _

theorem Document.Settled.adopt (hd : d.Framed) (hlinked : ∀ element, d.Linked element)
    (hparts : b.parts = none) : (b.adopt d).2.2.Settled (b.adopt d).2.1 := by
  have hwf := hd.wellFormed
  rcases adopt_cases hwf b with ⟨parts, hsome, -⟩ | ⟨-, hnone, he⟩ |
    ⟨element, t, -, hfound, ht, ⟨region, hregion, he⟩ | ⟨hregion, hv, he⟩ | ⟨hv, he⟩⟩
  · rw [hparts] at hsome; cases hsome
  · rw [he]
    refine ⟨⟨hd, fun parts hsome => ?_, .inl ?_⟩, hlinked _⟩
    · rw [hparts] at hsome; cases hsome
    · rw [hnone, element?, hparts]; rfl
  · obtain ⟨hne, hnb, hattached⟩ := hd.ne_of_elementById hfound
    rw [he]
    refine ⟨⟨hd, fun parts hsome => ?_, .inl hfound⟩, hlinked _⟩
    cases hsome
    exact ⟨hne, hnb, hattached, hregion⟩
  · obtain ⟨hne, hnb, hattached⟩ := hd.ne_of_elementById hfound
    rw [he]
    exact settled_region hd (hlinked _) hfound hne hnb hattached hregion ht hv
  · rw [he]
    have hhosts : d.Hosts b := by
      refine ⟨hd, fun parts hsome => ?_, .inr ⟨element, t, hfound, ht, hv, fun parts hsome => ?_⟩⟩
      · rw [hparts] at hsome; cases hsome
      · rw [hparts] at hsome; cases hsome
    exact (Document.Settled.lay_region ⟨hhosts, hlinked _⟩ ht hv).settled

end FormPage
