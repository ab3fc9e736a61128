import FormPage.Proofs.Page.Course
import FormPage.Proofs.Page.Reload

/-!
What the balloon of a page tells. After the balloon was shown its region holds the text and nothing
else, its element stands at the place that was worked out for the node then, and it is to be seen
(`Tells`). No row, no request and no failing attempt to show it changes that, and hiding it takes it
out of sight and no more. So at any later time the balloon tells what it was last shown for, and it
is to be seen exactly if it was not hidden since (`told_after`).
-/

namespace FormPage

open Document Balloon Relation

variable {d d' : Document} {b b' : Balloon} {p : Page} {n target control : NodeId}
  {parts : BalloonParts} {text told : String} {place : Placement} {visible : Bool}
  {spec : PageSpec}

namespace Document

/-- The only child of a region is a text. -/
def HoldsText (d : Document) (region : NodeId) (text : String) : Prop :=
  ∃ c, d.children region = [c] ∧ d.tag? c = some .text ∧ d.text c = text

/-- The region holds one text, and the element stands at a place and is to be seen, or hidden. -/
structure Tells (d : Document) (parts : BalloonParts) (text : String) (place : Placement)
    (visible : Bool) : Prop where
  content : d.HoldsText parts.textRegion text
  style : ∃ s, d.style? parts.element = some s ∧ s.left = some place.left ∧
    s.top = some place.top ∧ s.isHidden = !visible

theorem style?_updateStyle {s : Style} (hs : d.style? n = some s) (f : Style → Style) :
    (d.updateStyle n f).style? n = some (f s) := by
  obtain ⟨x, hx, rfl⟩ := Option.map_eq_some_iff.mp hs
  rw [updateStyle, style?, node?_update, if_pos rfl, hx]
  rfl

theorem HoldsText.region_lt (h : d.HoldsText n text) : n < d.size := by
  obtain ⟨c, hc, -⟩ := h
  exact lt_size_of_child (hc ▸ List.mem_singleton_self c)

theorem HoldsText.update (h : d.HoldsText n text) {m : NodeId} {f : Node → Node}
    (hchildren : ∀ x, (f x).children = x.children) (htag : ∀ x, (f x).tag = x.tag)
    (htext : ∀ x, (f x).text = x.text) : (d.update m f).HoldsText n text := by
  obtain ⟨c, hc, ht, hx⟩ := h
  exact ⟨c, by rw [children_update hchildren, hc], by rw [tag?_update htag, ht],
    by rw [text_update htext, hx]⟩

/-- What is told stays where the region has the same children and older nodes show the same. -/
theorem Tells.of_face (h : d.Tells parts text place visible)
    (hchildren : d'.children parts.textRegion = d.children parts.textRegion)
    (hface : ∀ n < d.size, d'.face? n = d.face? n) : d'.Tells parts text place visible := by
  obtain ⟨c, hc, htag, htext⟩ := h.content
  obtain ⟨s, hs, hplace⟩ := h.style
  have hlt : c < d.size := lt_size_of_tag htag
  have helement : parts.element < d.size := by
    obtain ⟨x, hx, -⟩ := Option.map_eq_some_iff.mp hs
    exact lt_size_of_node hx
  refine ⟨⟨c, hchildren.trans hc, ?_, ?_⟩, s, ?_, hplace⟩
  · rw [tag?_eq_face, hface c hlt, ← tag?_eq_face, htag]
  · rw [text_eq_face, hface c hlt, ← text_eq_face, htext]
  · rw [style?_eq_face, hface _ helement, ← style?_eq_face, hs]

/-! ### What does not change it -/

/-- No row stands in a region that holds a text. -/
theorem Tells.addRow (h : d.Tells parts text place visible) (hd : d.Settled b) (control : NodeId)
    (name : String) :
    match Row.add d control name with
    | (some _, d') => d'.relayout.Tells parts text place visible
    | (none, d') => d'.Tells parts text place visible := by
  have hwf := hd.hosts.framed.wellFormed
  have hlt := h.content.region_lt
  rcases Row.add_cases hwf control name with ⟨t, ht, -, hp, he⟩ | ⟨t, he⟩ | he
  · rw [he]
    have hne : parts.textRegion ≠ t.container := by
      intro hregion
      obtain ⟨c, hc, htag, -⟩ := h.content
      have hmem := (hwf.mem_children t.container t.anchor).mpr hp
      rw [← hregion, hc, List.mem_singleton] at hmem
      have hrow := Row.tag?_anchor ht
      rw [hmem, htag] at hrow
      cases hrow
    refine h.of_face ?_ fun n hn => ?_
    · rw [children_relayout, children_graft_old hlt, if_neg hne]
    · rw [face?_relayout, face?_graft_old hn]
  · rw [he]
    exact h.of_face (children_lay_old hlt) fun n hn => face?_lay_old hn
  · rw [he]
    exact h

theorem Tells.writeValue (h : d.Tells parts text place visible) (n : NodeId) (value : String) :
    (d.writeValue n value).Tells parts text place visible := by
  refine ⟨h.content.update (fun _ => rfl) (fun _ => rfl) fun _ => rfl, ?_⟩
  obtain ⟨s, hs, hplace⟩ := h.style
  have hsame : (d.writeValue n value).style? parts.element = d.style? parts.element :=
    style?_update fun _ => rfl
  exact ⟨s, hsame.trans hs, hplace⟩

theorem Tells.send (h : d.Tells parts text place visible) (control : NodeId) (value name : String)
    (confirm : String → Bool) :
    (Request.send d control value name confirm).2.Tells parts text place visible := by
  cases hform : d.nearestAbove? (some control) .form with
  | none => simpa only [Request.send, hform] using h
  | some form =>
    cases hfield : d.namedControl? form name with
    | none => simpa only [Request.send, hform, hfield] using h
    | some field =>
      rw [Request.document_of_found hform hfield]
      exact h.writeValue field _

/-- Hiding takes out of sight, and no more. -/
theorem Tells.hide (h : d.Tells parts text place visible) (hparts : b.parts = some parts) :
    (b.hide d).Tells parts text place false := by
  obtain ⟨s, hs, hleft, htop, -⟩ := h.style
  have helement : b.element? = some parts.element := by
    rw [element?, hparts]
    rfl
  simp only [Balloon.hide, helement]
  refine ⟨h.content.update (fun _ => rfl) (fun _ => rfl) fun _ => rfl,
    { s with display := .none }, ?_, hleft, htop, rfl⟩
  rw [style?_updateStyle hs]

/-- A region that holds a text can be filled, so that showing fails only for want of a place. -/
theorem Tells.showAt_of_failed (h : d.Tells parts told place visible) (hd : d.Settled b)
    (hparts : b.parts = some parts) (hfailed : (b.showAt d target text).1 = false) :
    b.showAt d target text = (false, b, d) := by
  cases hplace : d.balloonPlacement? target b.nudge with
  | none => exact showAt_of_none hplace
  | some place =>
    obtain ⟨parts', d', t, hensure, -, ht, he⟩ := hd.showAt_of_some text hplace
    rw [ensure_of_parts hparts] at hensure
    obtain ⟨rfl, hb, rfl⟩ : parts = parts' ∧ b = { b with parts := some parts' } ∧ d = d' := by
      simpa only [Prod.mk.injEq, Except.ok.injEq] using hensure
    obtain ⟨c, hc, -⟩ := h.content
    cases hv : t.isVoid with
    | true =>
      rw [hd.hosts.framed.wellFormed.void_empty _ t ht hv] at hc
      cases hc
    | false =>
      rw [he, hv] at hfailed
      cases hfailed

/-! ### Showing -/

theorem Settled.tells_filled (h : d.Settled b) (hparts : b.parts = some parts)
    (place : Placement) (text : String) :
    ((Balloon.filled d parts.textRegion text).updateStyle parts.element (placed place)).Tells parts
      text place true := by
  have hwf := h.hosts.framed.wellFormed
  have hcarries := h.hosts.carries parts hparts
  have hlt : parts.textRegion < (Balloon.cleared d parts.textRegion).size := by
    rw [size_cleared hwf]
    exact hcarries.region_lt hwf
  have helement : parts.element < (Balloon.cleared d parts.textRegion).size := by
    rw [size_cleared hwf]
    exact hcarries.element_lt h.hosts.framed
  have hcontent : (Balloon.filled d parts.textRegion text).HoldsText parts.textRegion text := by
    refine ⟨(Balloon.cleared d parts.textRegion).size, ?_, ?_, ?_⟩
    · rw [Balloon.filled, children_graftLast hlt, children_cleared hwf, if_pos rfl]
      rfl
    · rw [tag?_eq_face, Balloon.filled, graftLast, face?_graft_first]
      rfl
    · rw [text_eq_face, Balloon.filled, graftLast, face?_graft_first]
      rfl
  obtain ⟨x, hx⟩ := exists_node helement
  have hstyle : (Balloon.filled d parts.textRegion text).style? parts.element = some x.style := by
    rw [Balloon.filled, style?_eq_face, graftLast, face?_graft_old helement, ← style?_eq_face,
      style?, hx]
    rfl
  exact ⟨hcontent.update (fun _ => rfl) (fun _ => rfl) fun _ => rfl, placed place x.style,
    style?_updateStyle hstyle _, rfl, rfl, rfl⟩

/-- Showing that succeeds leaves the text in the region and the element at the place. -/
theorem Settled.tells_showAt (h : d.Settled b) (hshown : (b.showAt d target text).1 = true) :
    ∃ parts place, d.balloonPlacement? target b.nudge = some place ∧
      (b.showAt d target text).2.1.parts = some parts ∧
      (b.showAt d target text).2.2.Tells parts text place true := by
  cases hplace : d.balloonPlacement? target b.nudge with
  | none =>
    rw [showAt_of_none hplace] at hshown
    cases hshown
  | some place =>
    obtain ⟨parts, d', t, -, hleads, -, he⟩ := h.showAt_of_some text hplace
    rw [he] at hshown ⊢
    cases hv : t.isVoid with
    | true =>
      rw [hv] at hshown
      cases hshown
    | false => exact ⟨parts, place, rfl, rfl, hleads.settled.tells_filled rfl place text⟩

/-- No change takes the balloon another element or region. -/
theorem Changes.parts_eq (hc : Changes d b d' b') (h : b.parts = some parts) :
    b'.parts = some parts := by
  cases hc with
  | lay | row | write | restyle | clear | fill => exact h
  | build hparts =>
    rw [hparts] at h
    cases h

theorem Course.parts_eq (hc : Course d b d' b') (h : b.parts = some parts) :
    b'.parts = some parts :=
  hc.invariant (fun _ _ _ _ _ hc _ => hc.parts_eq) h

end Document

namespace Page

/-- What a page tells by its balloon. -/
structure Tells (p : Page) (parts : BalloonParts) (text : String) (place : Placement)
    (visible : Bool) : Prop where
  settled : p.Settled
  carried : p.balloon.parts = some parts
  told : p.document.Tells parts text place visible

/-- What events do, one after the other. -/
def outcomes (p : Page) : List Delivery → List Outcome
  | [] => []
  | e :: es =>
    (p.react e.target e.event e.confirm).1.outcome ::
      outcomes (p.react e.target e.event e.confirm).2 es

theorem Tells.isVisible (h : p.Tells parts text place visible) :
    p.balloon.isVisible p.document = visible := by
  obtain ⟨s, hs, -, -, hhidden⟩ := h.told.style
  simp [Balloon.isVisible, Balloon.element?, h.carried, hs, hhidden]

/-- A handler that does not show the balloon leaves what it tells, and only hiding hides it. -/
theorem Tells.run (h : p.Tells parts text place visible) {n : NodeId} {confirm : String → Bool}
    {a : Action} (hshown : (p.run n confirm a).1.outcome ≠ .helpShown) :
    (p.run n confirm a).2.Tells parts text place
      (visible && (p.run n confirm a).1.outcome ≠ .helpHidden) := by
  refine ⟨(run_leads h.settled n confirm a).settled, ?_, ?_⟩
  · exact (course_run h.settled n confirm a).parts_eq h.carried
  · cases a with
    | addField field =>
      have hadd := h.told.addRow h.settled n (p.fieldFor n field)
      rw [Page.run]
      split <;> rename_i he <;> rw [he] at hadd
      · simpa using hadd
      · simpa using hadd
    | setRequest value => simpa [Page.run] using h.told.send n value p.options.requestField confirm
    | showHelp told =>
      have hfailed : (p.balloon.showAt p.document n told).1 = false := by
        simpa [Page.run] using hshown
      simpa [Page.run, h.told.showAt_of_failed h.settled h.carried hfailed] using h.told
    | hideHelp => simpa [Page.run] using h.told.hide h.carried

theorem Tells.react (h : p.Tells parts text place visible) {e : Delivery}
    (hshown : (p.react e.target e.event e.confirm).1.outcome ≠ .helpShown) :
    (p.react e.target e.event e.confirm).2.Tells parts text place
      (visible && (p.react e.target e.event e.confirm).1.outcome ≠ .helpHidden) := by
  rw [Page.react] at hshown ⊢
  split at hshown
  · simpa using h
  · exact h.run hshown

/-- As long as the balloon is not shown again it tells the same, and it is to be seen as long as it
is not hidden. -/
theorem Tells.after : ∀ (es : List Delivery) {p : Page} {visible : Bool},
    p.Tells parts text place visible → .helpShown ∉ p.outcomes es →
    (p.after es).Tells parts text place (visible && .helpHidden ∉ p.outcomes es)
  | [], _, _, h, _ => by simpa [outcomes, Page.after] using h
  | e :: es, p, visible, h, hnot => by
    rw [outcomes, List.mem_cons, not_or] at hnot
    have hstep := (h.react fun he => hnot.1 he.symm).after es hnot.2
    simpa [outcomes, Page.after, eq_comm, Bool.and_assoc] using hstep

/-- A handler that shows the balloon makes it tell its text at the place of its node. -/
theorem tells_react (h : p.Settled) {e : Delivery}
    (hshown : (p.react e.target e.event e.confirm).1.outcome = .helpShown) :
    ∃ n text place parts, p.handler? e.target e.event = some (n, .showHelp text) ∧
      p.document.balloonPlacement? n p.balloon.nudge = some place ∧
      (p.react e.target e.event e.confirm).2.Tells parts text place true := by
  have hsettled := (react_leads h e.target e.event e.confirm).settled
  rw [Page.react] at hshown hsettled ⊢
  cases hhandler : p.handler? e.target e.event with
  | none => simp [hhandler] at hshown
  | some handler =>
    obtain ⟨n, a⟩ := handler
    simp only [hhandler] at hshown hsettled ⊢
    cases a with
    | addField field =>
      rw [run] at hshown
      split at hshown <;> cases hshown
    | setRequest value => cases hshown
    | hideHelp => cases hshown
    | showHelp text =>
      have hsuccess : (p.balloon.showAt p.document n text).1 = true := by
        simpa [run] using hshown
      obtain ⟨parts, place, hplace, hparts, htold⟩ :=
        Document.Settled.tells_showAt h hsuccess
      exact ⟨n, text, place, parts, rfl, hplace, hsettled, hparts, htold⟩

/-- The nodes of the balloon of a page that was built never change once it has them. After the
balloon was shown, and not again since, its region holds nothing but the text of that handler, its
element stands at the place that the node of that handler had then, and it is to be seen exactly if
it was not hidden since. -/
theorem told_after (h : spec.build = .ok p) :
    (∀ es es' parts, (p.after es).balloon.parts = some parts →
      (p.after (es ++ es')).balloon.parts = some parts) ∧
    ∀ es e es', ((p.after es).react e.target e.event e.confirm).1.outcome = .helpShown →
      .helpShown ∉ (p.after (es ++ [e])).outcomes es' →
      ∃ n text place parts style,
        (p.after es).handler? e.target e.event = some (n, .showHelp text) ∧
        (p.after es).document.balloonPlacement? n p.options.nudge = some place ∧
        (p.after (es ++ e :: es')).balloon.parts = some parts ∧
        (p.after (es ++ e :: es')).document.HoldsText parts.textRegion text ∧
        (p.after (es ++ e :: es')).document.style? parts.element = some style ∧
        style.left = some place.left ∧ style.top = some place.top ∧
        ((p.after (es ++ e :: es')).balloon.isVisible (p.after (es ++ e :: es')).document = true ↔
          .helpHidden ∉ (p.after (es ++ [e])).outcomes es') := by
  have hsettled := PageSpec.settled_of_build h
  refine ⟨fun es es' parts hparts => ?_, fun es e es' hshown hnot => ?_⟩
  · rw [after_append]
    exact (course_after es' (after_leads es hsettled).settled).parts_eq hparts
  · have hbefore := after_leads es hsettled
    have hnudge : (p.after es).balloon.nudge = p.options.nudge := by
      obtain ⟨parts, hfresh⟩ := (live_after h es).fresh
      rw [hfresh, hbefore.options]
      rfl
    obtain ⟨n, text, place, parts, hhandler, hplace, htells⟩ := tells_react hbefore.settled hshown
    have hlater : p.after (es ++ e :: es') = (p.after (es ++ [e])).after es' := by
      rw [← after_append, List.append_assoc]
      rfl
    rw [show ((p.after es).react e.target e.event e.confirm).2 = p.after (es ++ [e]) by
      rw [after_append]; rfl] at htells
    have hend := htells.after es' hnot
    rw [← hlater] at hend
    obtain ⟨style, hstyle, hleft, htop, -⟩ := hend.told.style
    refine ⟨n, text, place, parts, style, hhandler, hnudge ▸ hplace, hend.carried,
      hend.told.content, hstyle, hleft, htop, ?_⟩
    rw [hend.isVisible]
    simp

/-- A balloon that was shown over rows tells its help and nothing else, and a click at a row that
it no longer holds changes nothing about that. -/
theorem told_balloonPage : ∃ p, PageSpec.balloonPage.build = .ok p ∧
    (p.after (balloonEvents ++ [⟨11, .click, fun _ => true⟩])).document.HoldsText 3 "help" ∧
    (p.after (balloonEvents ++ [⟨11, .click, fun _ => true⟩])).balloon.isVisible
      (p.after (balloonEvents ++ [⟨11, .click, fun _ => true⟩])).document = true := by
  have hfacts : (PageSpec.balloonPage.build.toOption.map fun p =>
      (p.balloon.parts, ((p.after [⟨11, .click, fun _ => true⟩]).react 13 .mouseOver
        fun _ => true).1.outcome, (p.after [⟨11, .click, fun _ => true⟩]).handler? 13 .mouseOver,
        (p.after balloonEvents).outcomes [⟨11, .click, fun _ => true⟩])) =
      some (some ⟨2, 3⟩, .helpShown, some (12, .showHelp "help"), [.fieldUnchanged]) := by
    decide +kernel
  cases hp : PageSpec.balloonPage.build with
  | error e => rw [hp] at hfacts; cases hfacts
  | ok p =>
    rw [hp] at hfacts
    simp only [Except.toOption, Option.map_some, Option.some.injEq, Prod.mk.injEq] at hfacts
    obtain ⟨hparts, hshown, hhandler, hafter⟩ := hfacts
    obtain ⟨hkept, htold⟩ := told_after hp
    obtain ⟨n, text, place, parts, style, hhandler', -, hparts', hcontent, -, -, -, hvisible⟩ :=
      htold [⟨11, .click, fun _ => true⟩] ⟨13, .mouseOver, fun _ => true⟩
        [⟨11, .click, fun _ => true⟩] hshown
        (by rw [show _ ++ _ = balloonEvents from rfl, hafter]; decide)
    cases hhandler.symm.trans hhandler'
    cases (hkept [] _ _ hparts).symm.trans hparts'
    refine ⟨p, rfl, hcontent, hvisible.mpr ?_⟩
    rw [show _ ++ _ = balloonEvents from rfl, hafter]
    decide

end Page

end FormPage
