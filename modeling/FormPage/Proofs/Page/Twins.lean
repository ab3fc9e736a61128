import FormPage.Proofs.Page.Matching
import FormPage.Proofs.Page.Reload

/-!
Twins. Two pages that show the same tree under some pairing of their nodes, with the same handlers
and with paired balloons, answer the same to an event at paired nodes, and are twins again under a
pairing that has grown. A page and its reloaded description are twins, unless the reserved id was
given to an element of the page.
-/

namespace FormPage

open Document Balloon Relation Relator
open NodeSpec (flatAll)

variable {p q p' q' : Page} {d d' e e' : Document} {n n' : NodeId}
  {w w' w'' : NodeId → NodeId → Prop}

/-! ### Pairings that grow -/

/-- From a pairing to a later one: what was paired stays so, and what is newly paired is new. -/
structure Document.Follows (w : NodeId → NodeId → Prop) (d d' : Document)
    (w' : NodeId → NodeId → Prop) (e e' : Document) : Prop where
  old : ∀ n n', w n n' → w' n n'
  new : ∀ n n', w' n n' → w n n' ∨ (d.size ≤ n ∧ d'.size ≤ n')
  alike : Alike w' e e'

theorem Document.Alike.follows (h : Alike w e e') : Follows w d d' w e e' :=
  ⟨fun _ _ hn => hn, fun _ _ hn => .inl hn, h⟩

theorem Document.Alike.follows_grown {k : Nat} (h : Alike (Grown w d d' k) e e') :
    Follows w d d' (Grown w d d' k) e e' := by
  refine ⟨fun _ _ hn => .inl hn, fun n n' hn => ?_, h⟩
  rcases hn with hn | ⟨i, -, rfl, rfl⟩
  · exact .inl hn
  · exact .inr ⟨Nat.le_add_right _ _, Nat.le_add_right _ _⟩

theorem Document.Follows.trans {f f' : Document} (h : Follows w d d' w' e e')
    (h' : Follows w' e e' w'' f f') (hsize : d.size ≤ e.size) (hsize' : d'.size ≤ e'.size) :
    Follows w d d' w'' f f' where
  old n n' hn := h'.old n n' (h.old n n' hn)
  new n n' hn := by
    rcases h'.new n n' hn with hn | ⟨hle, hle'⟩
    · exact h.new n n' hn
    · exact .inr ⟨Nat.le_trans hsize hle, Nat.le_trans hsize' hle'⟩
  alike := h'.alike

theorem Document.Alike.writeValue (h : Alike w d d') (hn : w n n') (value : String) :
    Alike w (d.writeValue n value) (d'.writeValue n' value) :=
  h.setAttribute hn "value" value

/-- Paired regions are emptied and filled in the same way. -/
theorem Document.Alike.filled (h : Alike w d d') (hd : WellFormed d)
    (hd' : WellFormed d') (hn : w n n') (text : String) : ∃ w',
      Follows w d d' w' (Balloon.filled d n text) (Balloon.filled d' n' text) := by
  have hc := h.cleared hd hd' hn
  have hsize : d.size ≤ (Balloon.cleared d n).size := Nat.le_of_eq (size_cleared hd n).symm
  have hsize' : d'.size ≤ (Balloon.cleared d' n').size := Nat.le_of_eq (size_cleared hd' n').symm
  exact ⟨_, hc.follows.trans (hc.graftLast hn [textSpec text]).follows_grown hsize hsize'⟩

/-! ### Answers -/

/-- Outcomes that are the same, where a row that was added is at the same position. -/
def Outcome.Same (d d' : Document) : Outcome → Outcome → Prop
  | .fieldAdded row, .fieldAdded row' => SamePlace d d' row row'
  | o, o' => o = o'

/-- Reactions with the same outcome, the same questions and the same forms sent. -/
structure Reaction.Same (d d' : Document) (r r' : Reaction) : Prop where
  outcome : r.outcome.Same d d' r'.outcome
  prompts : r.prompts = r'.prompts
  submissions : r.submissions = r'.submissions

/-- A tree that was grafted below an attached node is attached. -/
theorem Document.WellFormed.attached_graft (h : WellFormed d) (hn : d.AtOrAbove root n)
    (hlt : n < d.size) (place : List NodeId → List NodeId) (s : NodeSpec) :
    (d.graft n place [s]).relayout.AtOrAbove root d.size := by
  have hsame : SameAbove (· < d.size) d (d.graft n place [s]).relayout :=
    sameAbove_old h fun m hm => by rw [parent?_relayout, parent?_graft_old hm]
  refine .head ?_ (hsame.atOrAbove hlt hn)
  rw [Step, parent?_relayout, parent?_graft_first]

namespace Page

/-- Pages that mirror each other, in which the balloons are paired as well; the first one built its
balloon itself. -/
structure Twins (w : NodeId → NodeId → Prop) (p q : Page) : Prop where
  mirrors : Mirrors w p q
  parts : PairedParts w p.balloon.parts q.balloon.parts
  live : p.Live
  live' : q.Live
  owns : Owns (fun n => p.bindings.ofNode n ≠ []) p.document p.balloon

/-- What two pages answer to the same, and what they become. -/
def Continue (w : NodeId → NodeId → Prop) (p q : Page) (r r' : Reaction × Page) : Prop :=
  ∃ w', Follows w p.document q.document w' r.2.document r'.2.document ∧
    PairedParts w' r.2.balloon.parts r'.2.balloon.parts ∧
    r.1.Same r.2.document r'.2.document r'.1

section Twins

variable (h : Twins w p q)
include h

theorem Twins.element : Option.Rel w p.balloon.element? q.balloon.element? := by
  have hparts := h.parts
  rw [Balloon.element?, Balloon.element?]
  generalize p.balloon.parts = x, q.balloon.parts = x' at hparts
  cases hparts with
  | none => exact .none
  | some hx => exact .some hx.1

theorem Twins.make : q.balloon.id = p.balloon.id ∧ q.balloon.cssClass = p.balloon.cssClass ∧
    q.balloon.nudge = p.balloon.nudge := by
  obtain ⟨parts, hp⟩ := h.live.fresh
  obtain ⟨parts', hq⟩ := h.live'.fresh
  rw [hp, hq, h.mirrors.options]
  exact ⟨rfl, rfl, rfl⟩

theorem Twins.next (hp : Leads p p') (hq : Leads q q')
    (hf : Follows w p.document q.document w' p'.document q'.document)
    (hparts : PairedParts w' p'.balloon.parts q'.balloon.parts) : Twins w' p' q' where
  mirrors := by
    refine ⟨hf.alike, fun n n' hn => ?_, ?_, ?_⟩
    · rw [hp.bindings, hq.bindings]
      rcases hf.new n n' hn with hn | ⟨hle, hle'⟩
      · exact h.mirrors.bindings n n' hn
      · -- new nodes have no handlers
        rw [not_ne_iff.mp (mt (h.live.bound_lt n) (Nat.not_lt_of_le hle)),
          not_ne_iff.mp (mt (h.live'.bound_lt n') (Nat.not_lt_of_le hle'))]
    · rw [hp.title, hq.title, h.mirrors.title]
    · rw [hp.options, hq.options, h.mirrors.options]
  parts := hparts
  live := hp.live h.live
  live' := hq.live h.live'
  owns := by
    rw [hp.bindings]
    exact Document.Leads.owns hp.steps h.owns

/-! ### Handlers -/

theorem Twins.handler? (hn : w n n') (event : Event) :
    Option.Rel (fun x x' : NodeId × Action => w x.1 x'.1 ∧ x.2 = x'.2) (p.handler? n event)
      (q.handler? n' event) := by
  refine findSome?_rel (h.mirrors.alike.aligned.inclusiveAncestors
    h.live.settled.hosts.framed.wellFormed h.live'.settled.hosts.framed.wellFormed hn)
    fun m m' hm => ?_
  rw [Bindings.action?_eq_ofNode, Bindings.action?_eq_ofNode, h.mirrors.bindings m m' hm]
  cases OrderedMap.lookup event (q.bindings.ofNode m') with
  | none => exact .none
  | some a => exact .some ⟨hm, rfl⟩

omit h in
theorem of_handler? {event : Event} {a : Action} {m : NodeId} (hp : p.Settled)
    (hm : p.handler? n event = some (m, a)) :
    p.document.AtOrAbove m n ∧ p.bindings.ofNode m ≠ [] := by
  obtain ⟨m', hmem, hm⟩ := List.exists_of_findSome?_eq_some hm
  obtain ⟨a', ha, he⟩ := Option.map_eq_some_iff.mp hm
  cases he
  refine ⟨hp.hosts.framed.wellFormed.mem_inclusiveAncestors.mp hmem, fun hnil => ?_⟩
  rw [Bindings.action?_eq_ofNode, hnil] at ha
  cases ha

/-- A node that handles an event of an attached node lies outside of the balloon, and the element of
the balloon does not hang below it. -/
theorem Twins.outside_handler {m : NodeId} (hn : p.document.AtOrAbove root n)
    (hm : p.document.AtOrAbove m n) (hbound : p.bindings.ofNode m ≠ []) :
    p.document.Outside p.balloon.element? m ∧
      ∀ e, p.balloon.element? = some e → p.document.parent? e ≠ some m := by
  have hwf := h.live.settled.hosts.framed.wellFormed
  refine ⟨⟨hwf.attached_of_above hn hm, (h.owns.apart m hbound).2⟩, fun e he hp => ?_⟩
  cases (h.owns.below e he).symm.trans hp
  exact hbound h.live.body_unbound

/-! ### Actions -/

theorem Twins.run_hideHelp (confirm : String → Bool) :
    Continue w p q (p.run n confirm .hideHelp) (q.run n' confirm .hideHelp) := by
  have halike : Alike w (p.balloon.hide p.document) (q.balloon.hide q.document) := by
    have helement := h.element
    rw [hide, hide]
    generalize p.balloon.element? = e, q.balloon.element? = e' at helement
    cases helement with
    | none => exact h.mirrors.alike
    | some he => exact h.mirrors.alike.restyle he fun s => { s with display := .none }
  exact ⟨w, halike.follows, h.parts, rfl, rfl, rfl⟩

theorem Twins.fieldFor (hn : w n n') (field : Option String) :
    p.fieldFor n field = q.fieldFor n' field := by
  rw [Page.fieldFor, Page.fieldFor, Row.fieldName?, Row.fieldName?, h.mirrors.alike.attribute? hn,
    h.mirrors.options]

theorem Twins.run_addField (hn : w n n') (hr : p.document.AtOrAbove root n)
    (confirm : String → Bool) (field : Option String) :
    Continue w p q (p.run n confirm (.addField field)) (q.run n' confirm (.addField field)) := by
  have hd := h.live.settled
  have hd' := h.live'.settled
  have hloc := Row.locate?_rel h.mirrors.alike hd hd' hn hr (q.fieldFor n' field)
  have hr' := (h.mirrors.alike.attached_iff hd hd' hn).mp hr
  simp only [run, h.fieldFor hn field]
  generalize q.fieldFor n' field = name at hloc
  cases ht : Row.Template.locate? p.document n name with
  | none =>
    rw [ht] at hloc
    simp only [Row.add, ht, eq_none_of_rel hloc]
    exact ⟨w, h.mirrors.alike.follows, h.parts, rfl, rfl, rfl⟩
  | some t =>
    rw [ht] at hloc
    obtain ⟨t', ht', htt⟩ := exists_of_rel hloc
    by_cases hfit : Text.Fits64 (t.index + 1)
    · have hfit' : Text.Fits64 (t'.index + 1) := htt.index ▸ hfit
      obtain ⟨hp, hc⟩ := Row.placed_of_attached hd hr ht
      obtain ⟨hp', -⟩ := Row.placed_of_attached hd' hr' ht'
      have hleads := Document.Settled.addRow hd n name
      rw [Row.add_of_placed hd.hosts.framed.wellFormed ht hfit hp] at hleads ⊢
      rw [Row.add_of_placed hd'.hosts.framed.wellFormed ht' hfit' hp', ← htt.index, ← htt.row_eq]
      have halike := (h.mirrors.alike.graftAhead htt.container htt.anchor
        (t.row name (t.index + 1))).relayout
      refine ⟨_, halike.follows_grown, h.parts.mono fun _ _ => Grown.old, ?_, rfl, rfl⟩
      have hnew : Grown w p.document q.document (flatAll [t.row name (t.index + 1)]).length
          p.document.size q.document.size := Grown.new (i := 0) (Nat.succ_pos _)
      exact halike.samePlace hleads.settled.hosts.framed.wellFormed hnew
        (hd.hosts.framed.wellFormed.attached_graft hc (hd.hosts.framed.lt_size hc) _ _)
    · have hfit' : ¬ Text.Fits64 (t'.index + 1) := htt.index ▸ hfit
      simp only [Row.add, ht, ht', if_neg hfit, if_neg hfit']
      exact ⟨w, h.mirrors.alike.follows, h.parts, rfl, rfl, rfl⟩

theorem Twins.run_setRequest (hn : w n n') (hr : p.document.AtOrAbove root n)
    (confirm : String → Bool) (value : String) :
    Continue w p q (p.run n confirm (.setRequest value))
      (q.run n' confirm (.setRequest value)) := by
  have hd := h.live.settled
  have hd' := h.live'.settled
  have hwf := hd.hosts.framed.wellFormed
  have hwf' := hd'.hosts.framed.wellFormed
  have halike := h.mirrors.alike
  have hform := halike.nearestAbove? hd hd' hn hr .form
  simp only [run, h.mirrors.options]
  cases hf : p.document.nearestAbove? (some n) .form with
  | none =>
    rw [hf] at hform
    simp only [Request.send, hf, eq_none_of_rel hform]
    exact ⟨w, halike.follows, h.parts, rfl, rfl, rfl⟩
  | some form =>
    rw [hf] at hform
    obtain ⟨form', hf', hwform⟩ := exists_of_rel hform
    have hfield := halike.namedControl? hwf hwf' hwform p.options.requestField
    cases hc : p.document.namedControl? form p.options.requestField with
    | none =>
      rw [hc] at hfield
      simp only [Request.send, hf, hf', hc, eq_none_of_rel hfield]
      exact ⟨w, halike.follows, h.parts, rfl, rfl, rfl⟩
    | some field =>
      rw [hc] at hfield
      obtain ⟨field', hc', hwfield⟩ := exists_of_rel hfield
      have hleads := Document.Settled.send hd n value p.options.requestField confirm
      have hleads' := Document.Settled.send hd' n' value p.options.requestField confirm
      rw [Request.document_of_found hf hc] at hleads
      rw [Request.document_of_found hf' hc'] at hleads'
      have hw := hleads.settled.hosts.framed.wellFormed
      have hw' := hleads'.settled.hosts.framed.wellFormed
      rw [Request.send_of_found hf hc, Request.send_of_found hf' hc']
      rw [← halike.attribute? hn "name"] at hw' ⊢
      have hwritten := halike.writeValue hwfield
        (Intent.text ⟨(p.document.attribute? n "name").getD "", value⟩)
      have hlabel := hwritten.valueOrText hw hw' hn
      have hcollect := hwritten.collect hw hw' hwform
      dsimp only
      rw [← hlabel, ← hcollect]
      split
      · exact ⟨w, hwritten.follows, h.parts, rfl, rfl, rfl⟩
      · exact ⟨w, hwritten.follows, h.parts, rfl, rfl, rfl⟩

/-- The nodes of the balloons are paired, also where they were just built. -/
theorem Twins.ensure {parts parts' : BalloonParts} {b b' : Balloon}
    (he : p.balloon.ensure p.document = (.ok parts, b, d))
    (he' : q.balloon.ensure q.document = (.ok parts', b', d')) :
    ∃ w', Follows w p.document q.document w' d d' ∧
      PairedParts w' (some parts) (some parts') := by
  have hd := h.live.settled
  have hd' := h.live'.settled
  have halike := h.mirrors.alike
  have hparts := h.parts
  cases hx : p.balloon.parts with
  | some x =>
    rw [hx] at hparts
    obtain ⟨x', hx', hxx⟩ := exists_of_rel hparts
    rw [ensure_of_parts hx] at he
    rw [ensure_of_parts hx'] at he'
    cases he
    cases he'
    exact ⟨w, halike.follows, .some hxx⟩
  | none =>
    rw [hx] at hparts
    have hx' := eq_none_of_rel hparts
    obtain ⟨hid, hclass, -⟩ := h.make
    have hfound : p.document.elementById? p.balloon.id = none := by
      rw [h.owns.elementById? hd, Balloon.element?, hx]; rfl
    have hfound' : q.document.elementById? q.balloon.id = none := by
      have hrel := halike.elementById? hd.hosts.framed.wellFormed hd'.hosts.framed.wellFormed
        p.balloon.id
      rw [hfound] at hrel
      rw [hid, eq_none_of_rel hrel]
    rw [hd.hosts.framed.ensure_of_none hx hfound] at he
    rw [hd'.hosts.framed.ensure_of_none hx' hfound', hid, hclass] at he'
    cases he
    cases he'
    have hgraft := halike.graftLast halike.body [elementSpec p.balloon.id p.balloon.cssClass]
    have hlen : (flatAll [elementSpec p.balloon.id p.balloon.cssClass]).length = 4 := rfl
    refine ⟨_, hgraft.follows_grown, .some ⟨?_, ?_⟩⟩
    · exact Grown.new (i := 0) (by rw [hlen]; decide)
    · exact Grown.new (i := 2) (by rw [hlen]; decide)

theorem Twins.run_showHelp (hn : w n n') (hout : p.document.Outside p.balloon.element? n)
    (hne : ∀ e, p.balloon.element? = some e → p.document.parent? e ≠ some n)
    (confirm : String → Bool) (text : String) :
    Continue w p q (p.run n confirm (.showHelp text)) (q.run n' confirm (.showHelp text)) := by
  have hd := h.live.settled
  have hd' := h.live'.settled
  have halike := h.mirrors.alike
  obtain ⟨hid, hclass, hnudge⟩ := h.make
  have hplace := halike.balloonPlacement? hd hd' h.element hn hout hne p.balloon.nudge
  simp only [run]
  cases hpl : p.document.balloonPlacement? n p.balloon.nudge with
  | none =>
    have hpl' : q.document.balloonPlacement? n' q.balloon.nudge = none := by
      rw [hnudge, ← hplace, hpl]
    rw [showAt_of_none hpl, showAt_of_none hpl']
    exact ⟨w, halike.follows, h.parts, rfl, rfl, rfl⟩
  | some place =>
    have hpl' : q.document.balloonPlacement? n' q.balloon.nudge = some place := by
      rw [hnudge, ← hplace, hpl]
    obtain ⟨parts, d, t, he, hleads, ht, hshow⟩ := hd.showAt_of_some text hpl
    obtain ⟨parts', d', t', he', hleads', ht', hshow'⟩ := hd'.showAt_of_some text hpl'
    obtain ⟨w₁, hf, hparts⟩ := h.ensure he he'
    obtain ⟨hwe, hwr⟩ : w₁ parts.element parts'.element ∧
        w₁ parts.textRegion parts'.textRegion := by
      cases hparts with
      | some hx => exact hx
    have hwf := hleads.settled.hosts.framed.wellFormed
    have hwf' := hleads'.settled.hosts.framed.wellFormed
    obtain rfl : t = t' := Option.some.inj (ht.symm.trans ((hf.alike.tag? hwr).trans ht'))
    rw [hshow, hshow']
    cases hv : t.isVoid with
    | true =>
      have hc := (hf.alike.cleared hwf hwf' hwr).lay (textSpec text) (textSpec text)
      exact ⟨w₁, hf.trans hc.follows hleads.size_le hleads'.size_le, hparts, rfl, rfl, rfl⟩
    | false =>
      obtain ⟨w₂, hf₂⟩ := hf.alike.filled hwf hwf' hwr text
      have hr := hf₂.alike.restyle (hf₂.old _ _ hwe) (placed place)
      have hfollows := hf.trans hf₂ hleads.size_le hleads'.size_le
      exact ⟨w₂, ⟨hfollows.old, hfollows.new, hr⟩, hparts.mono hf₂.old, rfl, rfl, rfl⟩

/-- A handler does the same at paired nodes. -/
theorem Twins.run {a : Action} {event : Event} {m m' : NodeId} (hm : w m m')
    (hn : p.document.AtOrAbove root n) (ha : p.handler? n event = some (m, a))
    (confirm : String → Bool) : Continue w p q (p.run m confirm a) (q.run m' confirm a) := by
  obtain ⟨habove, hbound⟩ := of_handler? h.live.settled ha
  obtain ⟨hout, hne⟩ := h.outside_handler hn habove hbound
  cases a with
  | addField field => exact h.run_addField hm hout.1 confirm field
  | setRequest value => exact h.run_setRequest hm hout.1 confirm value
  | showHelp text => exact h.run_showHelp hm hout hne confirm text
  | hideHelp => exact h.run_hideHelp confirm

/-- An event at paired attached nodes is answered in the same way, and leaves twins. -/
theorem Twins.react (hw : w n n') (hn : p.document.AtOrAbove root n) (event : Event)
    (confirm : String → Bool) :
    ∃ w', Twins w' (p.react n event confirm).2 (q.react n' event confirm).2 ∧
      (∀ m m', w m m' → w' m m') ∧
      (p.react n event confirm).1.Same (p.react n event confirm).2.document
        (q.react n' event confirm).2.document (q.react n' event confirm).1 := by
  have hcontinue : Continue w p q (p.react n event confirm) (q.react n' event confirm) := by
    have hhandler := h.handler? hw event
    rw [Page.react, Page.react]
    cases hx : p.handler? n event with
    | none =>
      rw [hx] at hhandler
      rw [eq_none_of_rel hhandler]
      exact ⟨w, h.mirrors.alike.follows, h.parts, rfl, rfl, rfl⟩
    | some x =>
      rw [hx] at hhandler
      obtain ⟨⟨m', a'⟩, hx', hm, rfl⟩ := exists_of_rel hhandler
      rw [hx']
      exact h.run hm hn hx confirm
  obtain ⟨w', hf, hparts, hsame⟩ := hcontinue
  exact ⟨w', h.next (react_leads h.live.settled n event confirm)
    (react_leads h.live'.settled n' event confirm) hf hparts, hf.old, hsame⟩

end Twins

end Page

end FormPage
