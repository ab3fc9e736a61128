import FormPage.Proofs.Document.Readings
import FormPage.Proofs.Page.Session

/-!
The course of a session, change by change. All that an event does to the document and the balloon of
a page is made up of seven kinds of changes, and the invariant of pages holds between any two of
them. What every single change keeps is therefore kept by whole sessions (`Page.course_after`).
-/

namespace FormPage

open Document Balloon Relation
open NodeSpec (flatAll)

variable {d d' d₀ : Document} {b b' b₀ : Balloon} {p q : Page} {n control target : NodeId}
  {parts : BalloonParts} {text : String}

namespace Document

/-- One change of the document and the balloon of a page. No tree that is added has an attribute
`style`. -/
inductive Changes : Document → Balloon → Document → Balloon → Prop
  /-- A tree is laid out without a place. -/
  | lay {d : Document} {b : Balloon} (s : NodeSpec)
      (hplain : ∀ t ∈ flatAll [s], t.attributes.get? "style" = none) : Changes d b (d.lay s) b
  /-- A tree is put in front of a row that is not the first child, and the layout is made anew. -/
  | row {d : Document} {b : Balloon} {anchor container : NodeId} (s : NodeSpec)
      (hparent : d.parent? anchor = some container) (hrow : d.tag? anchor = some .tr)
      (hprevious : (d.previousSibling? anchor).isSome)
      (hgrafted : WellFormed (d.graft container (insertAhead anchor d.size) [s]))
      (hplain : ∀ t ∈ flatAll [s], t.attributes.get? "style" = none) :
      Changes d b (d.graft container (insertAhead anchor d.size) [s]).relayout b
  /-- The value of a control is written. -/
  | write {d : Document} {b : Balloon} (n : NodeId) (value : String) :
      Changes d b (d.writeValue n value) b
  /-- The style of the element of the balloon is changed. -/
  | restyle {d : Document} {b : Balloon} {n : NodeId} (hn : b.element? = some n)
      (f : Style → Style) : Changes d b (d.updateStyle n f) b
  /-- All is taken out of the region. -/
  | clear {d : Document} {b : Balloon} {parts : BalloonParts} (hparts : b.parts = some parts) :
      Changes d b (cleared d parts.textRegion) b
  /-- A text is put into the region. -/
  | fill {d : Document} {b : Balloon} {parts : BalloonParts} (hparts : b.parts = some parts)
      (text : String) : Changes d b (d.graftLast parts.textRegion [textSpec text]) b
  /-- The balloon is built. -/
  | build {d : Document} {b : Balloon} (hparts : b.parts = none) :
      Changes d b (d.graftLast body [elementSpec b.id b.cssClass])
        { b with parts := some ⟨d.size, d.size + 2⟩ }

/-- From a document and its balloon to later ones, with the invariant of pages between any two
changes. -/
inductive Course (d₀ : Document) (b₀ : Balloon) : Document → Balloon → Prop
  | refl (h : d₀.Settled b₀) : Course d₀ b₀ d₀ b₀
  | step {d d' : Document} {b b' : Balloon} (h : Course d₀ b₀ d b) (hc : Changes d b d' b')
      (hs : d'.Settled b') : Course d₀ b₀ d' b'

namespace Course

theorem settled (h : Course d₀ b₀ d b) : d.Settled b := by
  cases h with
  | refl h => exact h
  | step _ _ hs => exact hs

theorem single (h : d.Settled b) (hc : Changes d b d' b') (hs : d'.Settled b') :
    Course d b d' b' :=
  (Course.refl h).step hc hs

theorem trans (h : Course d₀ b₀ d b) (h' : Course d b d' b') : Course d₀ b₀ d' b' := by
  induction h' with
  | refl _ => exact h
  | step _ hc hs ih => exact ih.step hc hs

/-- What holds at the start and is kept by every change holds at the end. -/
theorem invariant {P : Document → Balloon → Prop}
    (hP : ∀ d b d' b', d.Settled b → Changes d b d' b' → d'.Settled b' → P d b → P d' b')
    (h : Course d₀ b₀ d b) (h₀ : P d₀ b₀) : P d b := by
  induction h with
  | refl _ => exact h₀
  | step h hc hs ih => exact hP _ _ _ _ h.settled hc hs ih

end Course

/-! ### Actions as courses -/

namespace Settled

/-- Adding a row is a change, and making the layout anew belongs to it. -/
theorem course_addRow (h : d.Settled b) (control : NodeId) (name : String) :
    match Row.add d control name with
    | (some _, d') => Course d b d'.relayout b
    | (none, d') => Course d b d' b := by
  have hd := h.hosts.framed
  have hsettled := h.addRow control name
  have hgrafted := Row.add_kept wellFormed_kept hd.wellFormed control name
  rcases Row.add_cases hd.wellFormed control name with ⟨t, ht, -, hp, he⟩ | ⟨t, he⟩ | he
  · rw [he] at hsettled hgrafted ⊢
    have hprevious := Row.isSome_previousSibling_of_located ht
    exact .single h (.row _ hp (Row.tag?_anchor ht) hprevious hgrafted fun _ hs =>
      Row.get?_row hs (by decide)) hsettled.settled
  · rw [he] at hsettled ⊢
    exact .single h (.lay _ fun _ hs => Row.get?_row hs (by decide)) hsettled.settled
  · rw [he]
    exact .refl h

theorem course_send (h : d.Settled b) (control : NodeId) (value name : String)
    (confirm : String → Bool) : Course d b (Request.send d control value name confirm).2 b := by
  have hsettled := (h.send control value name confirm).settled
  cases hform : d.nearestAbove? (some control) .form with
  | none => simpa only [Request.send, hform] using .refl h
  | some form =>
    cases hfield : d.namedControl? form name with
    | none => simpa only [Request.send, hform, hfield] using .refl h
    | some field =>
      rw [Request.document_of_found hform hfield] at hsettled ⊢
      exact .single h (.write field _) hsettled

theorem course_restyle (h : d.Settled b) (hn : b.element? = some n) (f : Style → Style) :
    Course d b (d.updateStyle n f) b :=
  .single h (.restyle hn f) (h.restyle hn f).settled

theorem course_hide (h : d.Settled b) : Course d b (b.hide d) b := by
  rw [Balloon.hide]
  split
  · exact .refl h
  · rename_i hn
    exact h.course_restyle hn _

theorem course_build (h : d.Settled b) (hparts : b.parts = none) :
    Course d b (d.graftLast body [elementSpec b.id b.cssClass])
      { b with parts := some ⟨d.size, d.size + 2⟩ } :=
  .single h (.build hparts) (h.build hparts)

/-- Having the nodes of the balloon is no change, or builds them. -/
theorem course_ensure (h : d.Settled b) {r : Except TreeError BalloonParts}
    (he : b.ensure d = (r, b', d')) : Course d b d' b' := by
  cases hparts : b.parts with
  | some parts =>
    rw [ensure_of_parts hparts] at he
    cases he
    exact .refl h
  | none =>
    rcases h.hosts.finds with hf | ⟨e, t, hf, ht, hv, -⟩
    · rw [element?, hparts] at hf
      rw [h.hosts.framed.ensure_of_none hparts hf] at he
      cases he
      exact h.course_build hparts
    · rw [h.ensure_of_void hparts hf ht hv] at he
      cases he
      have hlaid := (h.lay_region ht hv).settled
      exact (Course.single h (.lay _ (by decide)) hlaid).trans (hlaid.course_build hparts)

theorem course_cleared (h : d.Settled b) (hparts : b.parts = some parts) :
    Course d b (Balloon.cleared d parts.textRegion) b :=
  .single h (.clear hparts) (h.cleared hparts)

/-- Showing the balloon builds it where it is missing, empties and fills its region, and moves its
element; at a region that holds nothing it stops half-way. -/
theorem course_showAt (h : d.Settled b) (target : NodeId) (text : String) :
    Course d b (b.showAt d target text).2.2 (b.showAt d target text).2.1 := by
  cases hplace : d.balloonPlacement? target b.nudge with
  | none =>
    rw [showAt_of_none hplace]
    exact .refl h
  | some place =>
    obtain ⟨parts, d', t, hensure, hleads, ht, he⟩ := h.showAt_of_some text hplace
    have hs := hleads.settled
    have hcleared := (h.course_ensure hensure).trans (hs.course_cleared rfl)
    rw [he]
    cases hv : t.isVoid with
    | true =>
      exact hcleared.step (.lay _ fun _ hx => get?_textSpec hx "style")
        (hs.cleared_void rfl ht hv text).settled
    | false =>
      have hfilled := (hs.filled rfl ht hv text).settled
      exact (hcleared.step (.fill rfl text) hfilled).trans (hfilled.course_restyle rfl _)

end Settled

end Document

/-! ### Sessions as courses -/

namespace Page

theorem course_run (h : p.Settled) (n : NodeId) (confirm : String → Bool) (a : Action) :
    p.document.Course p.balloon (p.run n confirm a).2.document (p.run n confirm a).2.balloon := by
  cases a with
  | addField field =>
    have hadd := Document.Settled.course_addRow h n (p.fieldFor n field)
    simp only [run]
    split <;> rename_i he <;> rw [he] at hadd
    · exact hadd
    · exact hadd
  | setRequest value => exact Document.Settled.course_send h n value p.options.requestField confirm
  | showHelp text => exact Document.Settled.course_showAt h n text
  | hideHelp => exact Document.Settled.course_hide h

theorem course_react (h : p.Settled) (target : NodeId) (event : Event) (confirm : String → Bool) :
    p.document.Course p.balloon (p.react target event confirm).2.document
      (p.react target event confirm).2.balloon := by
  rw [react]
  split
  · exact .refl h
  · exact course_run h _ confirm _

/-- A session is made up of changes between which the invariant of pages holds. -/
theorem course_after : ∀ (es : List Delivery) {p : Page}, p.Settled →
    p.document.Course p.balloon (p.after es).document (p.after es).balloon
  | [], _, h => .refl h
  | e :: es, _, h => by
    have hstep := course_react h e.target e.event e.confirm
    exact hstep.trans (course_after es hstep.settled)

end Page

/-- A page whose balloon is there from the start, with two rows in its region, the lower one with a
control, and beside it an element that explains itself. -/
def PageSpec.balloonPage : PageSpec where
  body := [
    { tag := .span, attributes := (∅ : OrderedMap String String).insert "id" "balloon_help"
      style := { position := .absolute }, children := [
        { tag := .span, attributes := (∅ : OrderedMap String String).insert "class" "text"
          children := [
            { tag := .tr, children := [
              { tag := .td, text := some "Field 1" },
              { tag := .td, children := [{ tag := .input }] }] },
            { tag := .tr, children := [
              { tag := .button, on := (∅ : OrderedMap Event Action).insert .click (.addField none),
                children := [{ tag := .span }] }] }] }] },
    { tag := .div, geometry := some { left := 7, top := 9 }, children := [
        { tag := .span, geometry := some { left := 3, width := 20, height := 5 } }],
      on := ((∅ : OrderedMap Event Action).insert .mouseOver (.showHelp "help")).insert .mouseOut
        .hideHelp }]

/-- A row is added inside of the balloon, and showing the balloon takes all rows out of it. -/
def Page.balloonEvents : List Page.Delivery :=
  [⟨11, .click, fun _ => true⟩, ⟨13, .mouseOver, fun _ => true⟩]

end FormPage
