import FormPage.Proofs.Page.Matching
import FormPage.Proofs.Row.Counting
import Mathlib.Data.List.Find

/-!
Rows of different groups. What is read for a new row lies around the row of the control and in the
row that is copied; a change of the children of another node, which lies neither there nor further
inside, does not touch it. Main statement: the template that is found for an attached control stays
the same when a row is added to a group that it is clear of.
-/

namespace FormPage

open Document

variable {d d' : Document} {b b' : Balloon} {n m p a control row container : NodeId}
  {field : String}

/-! ### Documents that differ in the children of one node -/

/-- A later document shows the older nodes as they were, links of the layout apart, and only one of
them has other children. -/
structure Document.KeptBut (p : NodeId) (d d' : Document) : Prop where
  wellFormed : WellFormed d
  wellFormed' : WellFormed d'
  face : ∀ n < d.size, d'.face? n = d.face? n
  parent : ∀ n < d.size, d'.parent? n = d.parent? n
  children : ∀ n < d.size, n ≠ p → d'.children n = d.children n

namespace Document.KeptBut

variable (h : KeptBut p d d')
include h

theorem tag? (hn : n < d.size) : d'.tag? n = d.tag? n := by
  rw [tag?_eq_face, tag?_eq_face, h.face n hn]

theorem attribute? (hn : n < d.size) (name : String) :
    d'.attribute? n name = d.attribute? n name := by
  rw [attribute?_eq_face, attribute?_eq_face, h.face n hn]

theorem sameAbove : SameAbove (· < d.size) d d' where
  parent n hn := (h.parent n hn).symm
  closed _ _ _ hq := h.wellFormed.parent_lt _ _ hq

theorem inclusiveAncestors (hn : n < d.size) :
    d'.inclusiveAncestors n = d.inclusiveAncestors n := by
  induction n using step_induction h.wellFormed.acyclic with
  | hP n ih =>
    rw [Document.inclusiveAncestors, Document.inclusiveAncestors, path_some h.wellFormed'.acyclic,
      path_some h.wellFormed.acyclic, h.parent n hn]
    cases hq : d.parent? n with
    | none => rw [path_none, path_none]
    | some q => exact congrArg (n :: ·) (ih q hq (h.wellFormed.parent_lt n q hq))

theorem firstTagged {ns : List NodeId} (hns : ∀ n ∈ ns, n < d.size) (tag : Tag) :
    d'.firstTagged tag ns = d.firstTagged tag ns :=
  List.find?_congr fun n hn => by rw [h.tag? (hns n hn)]

theorem textContent (hn : n < d.size) (hp : ¬ d.AtOrAbove n p) :
    d'.textContent n = d.textContent n := by
  rw [Document.textContent, Document.textContent]
  refine congrArg String.ofList
    (h.wellFormed.fold_congr_below h.wellFormed' hn fun m x hm hx => ?_)
  have hlt := lt_size_of_node hx
  have hface := h.face m hlt
  rw [face?_of_node hx] at hface
  obtain ⟨x', hx', hxx⟩ := Option.map_eq_some_iff.mp hface
  have hchildren := h.children m hlt fun he => hp (he ▸ hm)
  rw [children_of_node hx', children_of_node hx] at hchildren
  obtain ⟨htag, -, htext, -, -⟩ := Node.eq_of_face hxx
  exact ⟨x', hx', hchildren, fun _ => by rw [htag, htext]⟩

/-! Searches among siblings whose parent is another node. -/

theorem firstChildTagged? (hn : n < d.size) (hp : n ≠ p) (tag : Tag) :
    d'.firstChildTagged? (some n) tag = d.firstChildTagged? (some n) tag := by
  rw [h.wellFormed'.firstChildTagged?_eq, h.wellFormed.firstChildTagged?_eq, h.children n hn hp,
    h.firstTagged (h.wellFormed.child_lt n)]

theorem nearestBefore? (ha : d.parent? a = some n) (hp : n ≠ p) (tag : Tag) :
    d'.nearestBefore? (d'.previousSibling? a) tag =
      d.nearestBefore? (d.previousSibling? a) tag := by
  obtain ⟨before, behind, hsplit⟩ :=
    List.append_of_mem ((h.wellFormed.mem_children n a).mpr ha)
  have hsplit' := (h.children n (h.wellFormed.parent_lt a n ha) hp).trans hsplit
  rw [h.wellFormed'.nearestBefore?_previousSibling hsplit',
    h.wellFormed.nearestBefore?_previousSibling hsplit, h.firstTagged fun m hm => ?_]
  exact h.wellFormed.child_lt n m (hsplit ▸ List.mem_append_left _ (List.mem_reverse.mp hm))

theorem nearestAfter? (ha : d.parent? a = some n) (hp : n ≠ p) (tag : Tag) :
    d'.nearestAfter? (d'.nextSibling? a) tag = d.nearestAfter? (d.nextSibling? a) tag := by
  obtain ⟨before, behind, hsplit⟩ :=
    List.append_of_mem ((h.wellFormed.mem_children n a).mpr ha)
  have hsplit' := (h.children n (h.wellFormed.parent_lt a n ha) hp).trans hsplit
  rw [h.wellFormed'.nearestAfter?_nextSibling hsplit',
    h.wellFormed.nearestAfter?_nextSibling hsplit, h.firstTagged fun m hm => ?_]
  exact h.wellFormed.child_lt n m
    (hsplit ▸ List.mem_append_right _ (List.mem_cons_of_mem a hm))

end Document.KeptBut

namespace Row

/-! ### The rows around a control -/

/-- `row` is the nearest row from a control upwards, and hangs below `container`. A control that is
a row itself is its own row. -/
structure RowOf (d : Document) (control row container : NodeId) : Prop where
  tag : d.tag? row = some .tr
  above : d.AtOrAbove row control
  nearest : ∀ m, d.AtOrAbove m control → d.tag? m = some .tr → d.AtOrAbove m row
  parent : d.parent? row = some container

/-- Of the rows among the earlier siblings of a row, `m` is the nearest. -/
def TemplateRow (d : Document) (container row m : NodeId) : Prop :=
  ∃ before between behind, d.children container = before ++ m :: (between ++ row :: behind) ∧
    d.tag? m = some .tr ∧ ∀ x ∈ between, d.tag? x ≠ some .tr

/-- A control is clear of a node: the node neither holds the row of the control nor lies in the row
that is copied for it. -/
def ClearOf (d : Document) (control p : NodeId) : Prop :=
  ∀ row container, RowOf d control row container →
    container ≠ p ∧ ∀ m, TemplateRow d container row m → ¬ d.AtOrAbove m p

theorem rowOf_of_nearestAbove (hd : d.Settled b) (hr : d.AtOrAbove root control)
    (hrow : d.nearestAbove? (some control) .tr = some row)
    (hparent : d.parent? row = some container) : RowOf d control row container := by
  rw [nearestAbove?, hd.path_upward hr] at hrow
  obtain ⟨habove, htag, hnearest⟩ :=
    (find?_path_eq_some hd.hosts.framed.wellFormed.acyclic control).mp hrow
  exact ⟨of_decide_eq_true htag, habove, fun m hm ht => hnearest m hm (decide_eq_true ht), hparent⟩

theorem templateRow_of_nearestBefore (h : WellFormed d) (hp : d.parent? row = some container)
    (hm : d.nearestBefore? (d.previousSibling? row) .tr = some m) :
    TemplateRow d container row m := by
  obtain ⟨before, behind, hsplit⟩ := List.append_of_mem ((h.mem_children container row).mpr hp)
  rw [h.nearestBefore?_previousSibling hsplit, firstTagged, List.find?_eq_some_iff_append] at hm
  obtain ⟨htag, later, earlier, hrev, hnone⟩ := hm
  refine ⟨earlier.reverse, later.reverse, behind, ?_, of_decide_eq_true htag, fun x hx => ?_⟩
  · rw [hsplit, ← List.reverse_reverse before, hrev]
    simp
  · simpa using hnone x (List.mem_reverse.mp hx)

theorem tag?_of_firstTagged {tag : Tag} {ns : List NodeId} (h : d.firstTagged tag ns = some n) :
    d.tag? n = some tag := by
  simpa using List.find?_some h

theorem parent?_of_firstChildTagged (h : WellFormed d) {tag : Tag}
    (hm : d.firstChildTagged? (some n) tag = some m) : d.parent? m = some n := by
  rw [h.firstChildTagged?_eq] at hm
  exact (h.mem_children n m).mp (List.mem_of_find?_eq_some hm)

theorem parent?_of_nearestAfter (h : WellFormed d) (ha : d.parent? a = some n) {tag : Tag}
    (hm : d.nearestAfter? (d.nextSibling? a) tag = some m) : d.parent? m = some n := by
  obtain ⟨before, behind, hsplit⟩ := List.append_of_mem ((h.mem_children n a).mpr ha)
  rw [h.nearestAfter?_nextSibling hsplit] at hm
  refine (h.mem_children n m).mp (hsplit ▸ List.mem_append_right _ (List.mem_cons_of_mem a ?_))
  exact List.mem_of_find?_eq_some hm

theorem nearestAbove?_of_keptBut (h : KeptBut p d d') (hd : d.Settled b) (hd' : d'.Settled b')
    (hr : d.AtOrAbove root control) (hlt : control < d.size) (tag : Tag) :
    d'.nearestAbove? (some control) tag = d.nearestAbove? (some control) tag := by
  have hwf := h.wellFormed
  rw [nearestAbove?, nearestAbove?, hd'.path_upward (h.sameAbove.atOrAbove hlt hr),
    hd.path_upward hr, h.inclusiveAncestors hlt, h.firstTagged fun m hm => ?_]
  exact hwf.acyclic.lt_of_reaches hlt (hwf.mem_inclusiveAncestors.mp hm)

/-- The input behind a cell is the same if the changed node is neither its row nor inside of it. -/
theorem inputBehind_of_keptBut (h : KeptBut p d d') {cell : NodeId}
    (hcell : d.parent? cell = some row) (hout : ¬ d.AtOrAbove row p) :
    d'.firstChildTagged? (d'.nearestAfter? (d'.nextSibling? cell) .td) .input =
      d.firstChildTagged? (d.nearestAfter? (d.nextSibling? cell) .td) .input := by
  have hwf := h.wellFormed
  rw [h.nearestAfter? hcell fun he => hout (he ▸ .refl)]
  cases hnext : d.nearestAfter? (d.nextSibling? cell) .td with
  | none =>
    rw [Document.firstChildTagged?, Document.firstChildTagged?, Option.bind_none,
      Option.bind_none, Document.nearestAfter?, Document.nearestAfter?, path_none, path_none]
    rfl
  | some next =>
    have hparent := parent?_of_nearestAfter hwf hcell hnext
    exact h.firstChildTagged? (lt_size_of_parent hparent)
      (fun he => hout (he ▸ .single hparent)) _

/-- What is found for an attached control stays the same where only the children of a node differ
that the control is clear of. -/
theorem locate?_of_keptBut (h : KeptBut p d d') (hd : d.Settled b) (hd' : d'.Settled b')
    (hr : d.AtOrAbove root control) (hlt : control < d.size) (hclear : ClearOf d control p)
    (field : String) : Template.locate? d' control field = Template.locate? d control field := by
  have hwf := h.wellFormed
  rw [Template.locate?, Template.locate?, nearestAbove?_of_keptBut h hd hd' hr hlt]
  refine Option.bind_congr fun anchor hanchor => ?_
  have hattached := hd.attached_of_nearestAbove hr hanchor
  have hanchor_lt : anchor < d.size := hd.hosts.framed.lt_size hattached
  rw [hd.upward?_eq hattached, hd'.upward?_eq (h.sameAbove.atOrAbove hanchor_lt hattached),
    h.parent anchor hanchor_lt]
  refine Option.bind_congr fun container hcontainer => ?_
  obtain ⟨hne, hinside⟩ :=
    hclear anchor container (rowOf_of_nearestAbove hd hr hanchor hcontainer)
  rw [h.nearestBefore? hcontainer hne]
  refine Option.bind_congr fun above habove => ?_
  have htemplate := templateRow_of_nearestBefore hwf hcontainer habove
  have hout := hinside above htemplate
  obtain ⟨-, -, -, -, htr, -⟩ := htemplate
  rw [h.firstChildTagged? (lt_size_of_tag htr) (fun he => hout (he ▸ .refl))]
  refine Option.bind_congr fun labelCell hlabelCell => ?_
  have hlabel := parent?_of_firstChildTagged hwf hlabelCell
  dsimp only
  rw [inputBehind_of_keptBut h hlabel hout]
  refine Option.bind_congr fun input hfound => ?_
  have hinput_lt : input < d.size := lt_size_of_tag (tag?_of_firstTagged hfound)
  rw [h.textContent (lt_size_of_parent hlabel) (fun hup => hout (hup.tail hlabel)),
    h.attribute? hinput_lt, h.attribute? hinput_lt, h.attribute? hinput_lt]

/-! ### Rows that can be added -/

/-- The template of a row that can be added: the rows around the control are found, and the next
number fits 64 bits. -/
def Template.ready? (d : Document) (control : NodeId) (field : String) : Option Template :=
  (Template.locate? d control field).filter fun t => Text.Fits64 (t.index + 1)

theorem ready?_of_keptBut (h : KeptBut p d d') (hd : d.Settled b) (hd' : d'.Settled b')
    (hr : d.AtOrAbove root control) (hclear : ClearOf d control p) (field : String) :
    Template.ready? d' control field = Template.ready? d control field :=
  congrArg (Option.filter _)
    (locate?_of_keptBut h hd hd' hr (hd.hosts.framed.lt_size hr) hclear field)

theorem locate?_of_ready {t : Template} (ht : Template.ready? d control field = some t) :
    Template.locate? d control field = some t ∧ Text.Fits64 (t.index + 1) := by
  obtain ⟨ht, hfit⟩ := Option.filter_eq_some_iff.mp ht
  exact ⟨ht, of_decide_eq_true hfit⟩

/-- At an attached control a row is added to its group if it can be. -/
theorem add_of_ready (hd : d.Settled b) (hr : d.AtOrAbove root control) {t : Template}
    (ht : Template.ready? d control field = some t) :
    RowOf d control t.anchor t.container ∧ d.AtOrAbove root t.container ∧
      add d control field = (some d.size, t.grow field d) := by
  obtain ⟨ht, hfit⟩ := locate?_of_ready ht
  obtain ⟨hp, hattached⟩ := placed_of_attached hd hr ht
  obtain ⟨-, -, -, hanchor, -⟩ := locate?_eq_some ht
  exact ⟨rowOf_of_nearestAbove hd hr hanchor hp, hattached,
    add_of_placed hd.hosts.framed.wellFormed ht hfit hp⟩

/-- No row is added that cannot be. -/
theorem add_of_unready (ht : Template.ready? d control field = none) :
    add d control field = (none, d) := by
  rw [Template.ready?, Option.filter_eq_none_iff] at ht
  cases hfound : Template.locate? d control field with
  | none => rw [add, hfound]
  | some t =>
    have hfit : ¬ Text.Fits64 (t.index + 1) := fun hfit => ht t hfound (decide_eq_true hfit)
    simp only [add, hfound, if_neg hfit]

/-- A new row is the only change of the older nodes, once the layout is made anew. -/
theorem keptBut_grow (h : WellFormed d) (t : Template) (field : String)
    (h' : WellFormed (t.grow field d).relayout) :
    KeptBut t.container d (t.grow field d).relayout where
  wellFormed := h
  wellFormed' := h'
  face n hn := by rw [face?_relayout, Template.grow, face?_graft_old hn]
  parent n hn := by rw [parent?_relayout, Template.grow, parent?_graft_old hn]
  children n hn hne := by
    rw [children_relayout, Template.grow, children_graft_old hn, if_neg hne]

/-! ### Groups -/

/-- Two controls stand in different groups: their rows hang below different nodes, and neither of
these is the row that is copied for the other control or lies inside of it. -/
def Apart (d : Document) (control control' : NodeId) : Prop :=
  ∀ row container row' container', RowOf d control row container →
    RowOf d control' row' container' → container ≠ container' ∧
      (∀ m, TemplateRow d container row m → ¬ d.AtOrAbove m container') ∧
      ∀ m, TemplateRow d container' row' m → ¬ d.AtOrAbove m container

theorem Apart.symm {control' : NodeId} (h : Apart d control control') :
    Apart d control' control := by
  intro row container row' container' hrow hrow'
  obtain ⟨hne, hout, hout'⟩ := h _ _ _ _ hrow' hrow
  exact ⟨Ne.symm hne, hout', hout⟩

theorem RowOf.unique (hd : WellFormed d) {row' container' : NodeId}
    (h : RowOf d control row container) (h' : RowOf d control row' container') :
    row' = row ∧ container' = container := by
  obtain rfl : row' = row :=
    hd.acyclic.antisymm (h'.nearest row h.above h.tag) (h.nearest row' h'.above h'.tag)
  exact ⟨rfl, Option.some.inj (h'.parent.symm.trans h.parent)⟩

theorem TemplateRow.parent (hd : WellFormed d) (h : TemplateRow d container row m) :
    d.parent? m = some container := by
  obtain ⟨before, between, behind, hsplit, -⟩ := h
  exact (hd.mem_children container m).mp (hsplit ▸ by simp)

/-- Groups of which neither lies inside the other are different. -/
theorem RowOf.apart (hd : WellFormed d) {control' row' container' : NodeId}
    (h : RowOf d control row container) (h' : RowOf d control' row' container')
    (hout : ¬ d.AtOrAbove container container') (hout' : ¬ d.AtOrAbove container' container) :
    Apart d control control' := by
  intro r c r' c' hr hr'
  obtain ⟨rfl, rfl⟩ := h.unique hd hr
  obtain ⟨rfl, rfl⟩ := h'.unique hd hr'
  exact ⟨fun he => hout (he ▸ .refl), fun m hm hup => hout (hup.tail (hm.parent hd)),
    fun m hm hup => hout' (hup.tail (hm.parent hd))⟩

/-- The control of another group is clear of the node to which a row is added. -/
theorem Apart.clearOf {control' : NodeId} (h : Apart d control control')
    (hrow : RowOf d control row container) : ClearOf d control' container := by
  intro row' container' hrow'
  obtain ⟨hne, -, hout'⟩ := h _ _ _ _ hrow hrow'
  exact ⟨Ne.symm hne, hout'⟩

end Row

end FormPage
