import FormPage.Proofs.Balloon.Showing
import FormPage.Proofs.Document.Reachable

/-!
What a failing operation leaves. Adopting and showing answer `false` at two places each: ahead of
all changes, and where a node that was just created cannot be attached because its parent is an
input or a text. At the second place the new node stays in the document, unattached, and showing may
have taken over the nodes that it found. Main statement: `fails_iff`, with the exact conditions
under which nothing is changed.
-/

namespace FormPage

open Document

variable {d d' : Document} {b b' : Balloon} {n target : NodeId} {t : Tag} {text : String}
  {parts : BalloonParts}

namespace Balloon

/-! ### Where a call fails -/

/-- The nodes that a balloon leads to while the document stays as it is: its own, or the first
element with its id together with that element's first child of the class `text`. -/
def Located (b : Balloon) (d : Document) (parts : BalloonParts) : Prop :=
  b.parts = some parts ∨
    b.parts = none ∧ d.elementById? b.id = some parts.element ∧
      ((d.children parts.element).find? fun n => hasClass d n "text") = some parts.textRegion

/-- Taking over an element fails where no attached element has the id, and then changes nothing; and
where the first one that has it is an input, and then leaves a region that is not attached. -/
inductive AdoptFails (b : Balloon) (d : Document) : Document → Prop
  | missing (hparts : b.parts = none) (hid : d.elementById? b.id = none) : AdoptFails b d d
  | input {element : NodeId} (hparts : b.parts = none) (hid : d.elementById? b.id = some element)
      (ht : d.tag? element = some .input) :
      AdoptFails b d (d.push { tag := .span, attributes := .insert ∅ "class" "text" })

/-- Showing fails where the balloon has no place, and then changes nothing; and where the region
that is led to holds no children, and then the nodes are the balloon's own and the document has a
text that is not attached. -/
inductive ShowFails (b : Balloon) (d : Document) (target : NodeId) (text : String) :
    Balloon → Document → Prop
  | unplaced (hplace : d.balloonPlacement? target b.nudge = none) : ShowFails b d target text b d
  | void {place : Placement} {parts : BalloonParts} {t : Tag}
      (hplace : d.balloonPlacement? target b.nudge = some place) (hparts : Located b d parts)
      (ht : d.tag? parts.textRegion = some t) (hv : t.isVoid = true) :
      ShowFails b d target text { b with parts := some parts } (d.push { tag := .text, text })

/-! ### Taking over an element -/

theorem lay_regionSpec (d : Document) :
    d.lay regionSpec = d.push { tag := .span, attributes := .insert ∅ "class" "text" } :=
  lay_of_leaf d rfl

theorem lay_textSpec (d : Document) (text : String) :
    d.lay (textSpec text) = d.push { tag := .text, text } :=
  lay_of_leaf d rfl

theorem AdoptFails.adopt_eq (h : WellFormed d) (hf : AdoptFails b d d') :
    b.adopt d = (false, b, d') := by
  cases hf with
  | missing hparts hid => simp [adopt, hparts, hid]
  | input hparts hid ht =>
    have hchildren := h.void_empty _ _ ht rfl
    simp [adopt, hparts, hid, hchildren, edit_appendTextRegion_of_void ht rfl, lay_regionSpec]

/-- What a taking over does: it has the nodes that the balloon leads to, or it adds a region, or it
fails. -/
theorem adopt_outcomes (h : WellFormed d) (b : Balloon) :
    (∃ parts, Located b d parts ∧ b.adopt d = (true, { b with parts := some parts }, d)) ∨
    (∃ element t, d.tag? element = some t ∧ t.isVoid = false ∧
      b.adopt d = (true, { b with parts := some { element, textRegion := d.size } },
        d.graftLast element [regionSpec])) ∨
    ∃ d', AdoptFails b d d' ∧ b.adopt d = (false, b, d') := by
  rcases adopt_cases h b with ⟨parts, hparts, ha⟩ | ⟨hparts, hid, ha⟩ |
    ⟨element, t, hparts, hid, ht, ⟨region, hregion, ha⟩ | ⟨hregion, hv, ha⟩ | ⟨hv, ha⟩⟩
  · have hb : { b with parts := some parts } = b := by rw [← hparts]
    exact .inl ⟨parts, .inl hparts, by rw [hb, ha]⟩
  · exact .inr (.inr ⟨d, .missing hparts hid, ha⟩)
  · exact .inl ⟨⟨element, region⟩, .inr ⟨hparts, hid, hregion⟩, ha⟩
  · exact .inr (.inl ⟨element, t, ht, hv, ha⟩)
  · have hfound := List.find?_some hid
    obtain rfl := h.tag?_of_void (of_decide_eq_true hfound) ht hv
    rw [lay_regionSpec] at ha
    exact .inr (.inr ⟨_, .input hparts hid ht, ha⟩)

theorem adoptFails_of_false (h : WellFormed d) (hfalse : (b.adopt d).1 = false) :
    ∃ d', AdoptFails b d d' := by
  rcases adopt_outcomes h b with ⟨_, -, ha⟩ | ⟨_, _, -, -, ha⟩ | ⟨d', hf, -⟩
  · rw [ha] at hfalse; cases hfalse
  · rw [ha] at hfalse; cases hfalse
  · exact ⟨d', hf⟩

theorem adopt_eq_false_iff (h : WellFormed d) :
    b.adopt d = (false, b', d') ↔ b' = b ∧ AdoptFails b d d' := by
  refine ⟨fun he => ?_, fun ⟨hb, hf⟩ => by rw [hf.adopt_eq h, hb]⟩
  obtain ⟨d'', hf⟩ := adoptFails_of_false h (congrArg Prod.fst he)
  cases (hf.adopt_eq h).symm.trans he
  exact ⟨rfl, hf⟩

/-! ### Showing -/

/-- A balloon that leads to its nodes has them without a change of the document. -/
theorem ensure_of_located (hparts : Located b d parts) :
    b.ensure d = (.ok parts, { b with parts := some parts }, d) := by
  rcases hparts with hown | ⟨hnone, hid, hregion⟩
  · have hb : { b with parts := some parts } = b := by rw [← hown]
    rw [hb, ensure_of_parts hown]
  · have ha : b.adopt d = (true, { b with parts := some parts }, d) := by
      simp [adopt, hnone, hid, hregion]
    simp only [ensure, ha]

/-- Nodes that are not led to are made: the text region is an element that was just added. -/
theorem ensure_of_not_located (h : Bodied d) (hnot : ∀ parts, ¬ Located b d parts) :
    ∃ parts b' d', b.ensure d = (.ok parts, b', d') ∧ WellFormed d' ∧ parts.element < d'.size ∧
      d'.tag? parts.textRegion = some .span := by
  rcases adopt_outcomes h.1 b with ⟨parts, hparts, -⟩ | ⟨element, t, ht, hv, ha⟩ | ⟨d', hf, ha⟩
  · exact absurd hparts (hnot parts)
  · have hadd : b.ensure d = (.ok ⟨element, d.size⟩, { b with parts := some ⟨element, d.size⟩ },
      d.graftLast element [regionSpec]) := by simp only [ensure, ha]
    have hwf := ensure_kept wellFormed_kept h.1 b
    rw [hadd] at hwf
    refine ⟨_, _, _, hadd, hwf, ?_, ?_⟩
    · rw [graftLast, size_graft]
      exact Nat.lt_add_right _ (lt_size_of_tag ht)
    · rw [tag?_eq_face, graftLast, face?_graft_first]; rfl
  · have hparts : b.parts = none := by cases hf <;> assumption
    have hbodied := adopt_kept bodied_kept h b
    rw [ha] at hbodied
    have hbuild : b.ensure d = (.ok ⟨d'.size, d'.size + 2⟩,
        { b with parts := some ⟨d'.size, d'.size + 2⟩ },
        d'.graftLast body [elementSpec b.id b.cssClass]) := by
      simp only [ensure, ha, hparts, edit_build_of_body hbodied.1 hbodied.2]
    have hwf := ensure_kept wellFormed_kept h.1 b
    rw [hbuild] at hwf
    refine ⟨_, _, _, hbuild, hwf, ?_, ?_⟩
    · rw [graftLast, size_graft]
      exact Nat.lt_add_of_pos_right (Nat.succ_pos 3)
    · rw [tag?_eq_face, graftLast, face?_graft_new]; rfl

/-- A void node has nothing to be cleared of. -/
theorem cleared_of_void (h : WellFormed d) (ht : d.tag? n = some t) (hv : t.isVoid = true) :
    cleared d n = d := by
  rw [cleared, h.void_empty n t ht hv, List.foldl_nil]

theorem showAt_of_filled {place : Placement}
    (hplace : d.balloonPlacement? target b.nudge = some place)
    (hensure : b.ensure d = (.ok parts, b', d')) (h : WellFormed d') (he : parts.element < d'.size)
    (ht : d'.tag? parts.textRegion = some t) (hv : t.isVoid = false) :
    (b.showAt d target text).1 = true := by
  simp only [showAt, hplace, hensure, edit_fill h ht hv]
  rw [contains_iff, graftLast, size_graft, size_cleared h]
  exact Nat.lt_add_right _ he

theorem ShowFails.showAt_eq (h : WellFormed d) (hf : ShowFails b d target text b' d') :
    b.showAt d target text = (false, b', d') := by
  cases hf with
  | unplaced hplace => simp only [showAt, hplace]
  | void hplace hparts ht hv =>
    simp only [showAt, hplace, ensure_of_located hparts, edit_fill_void h ht hv,
      cleared_of_void h ht hv, lay_textSpec]

theorem showFails_of_false (h : Bodied d)
    (hb : ∀ parts, b.parts = some parts → parts.element < d.size ∧ parts.textRegion < d.size)
    (hfalse : (b.showAt d target text).1 = false) : ∃ b' d', ShowFails b d target text b' d' := by
  cases hplace : d.balloonPlacement? target b.nudge with
  | none => exact ⟨b, d, .unplaced hplace⟩
  | some place =>
    by_cases hlocated : ∃ parts, Located b d parts
    · obtain ⟨parts, hparts⟩ := hlocated
      obtain ⟨he, hr⟩ : parts.element < d.size ∧ parts.textRegion < d.size := by
        rcases hparts with hp | ⟨-, -, hp⟩
        · exact hb parts hp
        · have hchild := List.mem_of_find?_eq_some hp
          exact ⟨lt_size_of_child hchild, h.1.child_lt _ _ hchild⟩
      obtain ⟨x, hx⟩ := exists_node hr
      have ht : d.tag? parts.textRegion = some x.tag := by rw [tag?, hx]; rfl
      cases hv : x.tag.isVoid with
      | true => exact ⟨_, _, .void hplace hparts ht hv⟩
      | false =>
        rw [showAt_of_filled hplace (ensure_of_located hparts) h.1 he ht hv] at hfalse
        cases hfalse
    · obtain ⟨parts, b', d', hensure, hwf, he, ht⟩ :=
        ensure_of_not_located h (not_exists.mp hlocated)
      rw [showAt_of_filled hplace hensure hwf he ht rfl] at hfalse
      cases hfalse

theorem showAt_eq_false_iff (h : Bodied d)
    (hb : ∀ parts, b.parts = some parts → parts.element < d.size ∧ parts.textRegion < d.size) :
    b.showAt d target text = (false, b', d') ↔ ShowFails b d target text b' d' := by
  refine ⟨fun he => ?_, fun hf => hf.showAt_eq h.1⟩
  obtain ⟨b'', d'', hf⟩ := showFails_of_false h hb (congrArg Prod.fst he)
  cases (hf.showAt_eq h.1).symm.trans he
  exact hf

/-- In a document that operations can lead to, a balloon whose own nodes are in the document fails
to take over an element, or to be shown, exactly by the rules `AdoptFails` and `ShowFails`. So a
failed call changes no node that was there. It leaves the document and the balloon as they were
exactly if no attached element has the id, or if there is no place for the balloon. -/
theorem fails_iff (hd : Reachable d) (b : Balloon)
    (hb : ∀ parts, b.parts = some parts → parts.element < d.size ∧ parts.textRegion < d.size) :
    (∀ b' d', b.adopt d = (false, b', d') ↔ b' = b ∧ AdoptFails b d d') ∧
      (∀ target text b' d',
        b.showAt d target text = (false, b', d') ↔ ShowFails b d target text b' d') ∧
      ((b.adopt d).1 = false → ((b.adopt d).2 = (b, d) ↔ d.elementById? b.id = none)) ∧
      ∀ target text, (b.showAt d target text).1 = false →
        ((b.showAt d target text).2 = (b, d) ↔ d.balloonPlacement? target b.nudge = none) := by
  have h := hd.bodied
  refine ⟨fun b' d' => adopt_eq_false_iff h.1, fun target text b' d' => showAt_eq_false_iff h hb,
    fun hfalse => ?_, fun target text hfalse => ?_⟩
  · obtain ⟨d', hf⟩ := adoptFails_of_false h.1 hfalse
    rw [hf.adopt_eq h.1]
    cases hf with
    | missing _ hid => exact iff_of_true rfl hid
    | input _ hid _ =>
      refine iff_of_false (fun he => push_ne d _ (congrArg Prod.snd he)) ?_
      rw [hid]
      exact Option.some_ne_none _
  · obtain ⟨b', d', hf⟩ := showFails_of_false h hb hfalse
    rw [hf.showAt_eq h.1]
    cases hf with
    | unplaced hplace => exact iff_of_true rfl hplace
    | void hplace _ _ _ =>
      refine iff_of_false (fun he => push_ne d _ (congrArg Prod.snd he)) ?_
      rw [hplace]
      exact Option.some_ne_none _

/-- An attached element with the id of a balloon, whose child of the class `text` is an input with
an id of its own; and a span that a balloon has a place at. -/
def inputRegion : Document :=
  after ([.createElement .span, .setAttribute 2 "id" "balloon_help", .createElement .input,
    .setAttribute 3 "class" "text", .setAttribute 3 "id" "balloon_text", .createElement .span,
    .createElement .span, .appendChild 2 3, .appendChild 4 5, .appendChild body 2,
    .appendChild body 4, .relayout].map .call)

/-- The input is taken for the region, and the text that is made for it has no place. -/
theorem fails_inputRegion : Reachable inputRegion ∧
    (∀ parts, ({} : Balloon).parts = some parts →
      parts.element < inputRegion.size ∧ parts.textRegion < inputRegion.size) ∧
    ({} : Balloon).showAt inputRegion 4 "help" =
      (false, { parts := some ⟨2, 3⟩ }, inputRegion.push { tag := .text, text := "help" }) := by
  have hb : ∀ parts, ({} : Balloon).parts = some parts →
      parts.element < inputRegion.size ∧ parts.textRegion < inputRegion.size := nofun
  refine ⟨⟨_, rfl⟩, hb, ((fails_iff ⟨_, rfl⟩ {} hb).2.1 4 "help" _ _).mpr ?_⟩
  have hplace : inputRegion.balloonPlacement? 4 ({} : Balloon).nudge = some ⟨-40, -15⟩ := by
    decide +kernel
  have hparts : Located {} inputRegion ⟨2, 3⟩ := .inr (by decide +kernel)
  have ht : inputRegion.tag? 3 = some .input := by decide +kernel
  exact .void hplace hparts ht rfl

/-- Neither a failed showing nor a failed taking over need leave the document as it was. -/
theorem changed_inputRegion :
    (¬ ∀ (d : Document) (b : Balloon) (target : NodeId) (text : String), Reachable d →
      (∀ parts, b.parts = some parts → parts.element < d.size ∧ parts.textRegion < d.size) →
      (b.showAt d target text).1 = false → (b.showAt d target text).2 = (b, d)) ∧
    ¬ ∀ (d : Document) (b : Balloon), Reachable d →
      (∀ parts, b.parts = some parts → parts.element < d.size ∧ parts.textRegion < d.size) →
      (b.adopt d).1 = false → (b.adopt d).2 = (b, d) := by
  have hsize : inputRegion.size = 6 := by decide +kernel
  refine ⟨fun h => ?_, fun h => ?_⟩
  · have hsame := h inputRegion {} 4 "help" ⟨_, rfl⟩ nofun (by decide +kernel)
    have hgrown : (({} : Balloon).showAt inputRegion 4 "help").2.2.size = 7 := by decide +kernel
    rw [hsame, hsize] at hgrown
    cases hgrown
  · have hsame := h inputRegion { id := "balloon_text" } ⟨_, rfl⟩ nofun (by decide +kernel)
    have hgrown : (({ id := "balloon_text" } : Balloon).adopt inputRegion).2.2.size = 7 := by
      decide +kernel
    rw [hsame, hsize] at hgrown
    cases hgrown

end Balloon

end FormPage
