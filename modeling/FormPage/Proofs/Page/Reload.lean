import FormPage.Proofs.Balloon.Owned
import FormPage.Proofs.Document.AlikeEdits
import FormPage.Proofs.Page.Session

/-!
Reloading. The description of a page, after any events, loads again; the loaded page shows the same
tree under the pairing of its nodes by position, with the same handlers, and looking for its balloon
adds nothing that is seen. Main statement: the reloaded page has the same description and the same
markup.
-/

namespace FormPage

open Document Balloon Relation
open NodeSpec (flatAll)

variable {p q r : Page} {spec : PageSpec}

/-- The balloon of a page with these options. -/
def PageOptions.balloonWith (o : PageOptions) (parts : Option BalloonParts) : Balloon where
  id := o.balloonId
  cssClass := o.balloonClass
  nudge := o.nudge
  parts := parts

/-- A page as building makes it and as every event keeps it. -/
structure Page.Live (p : Page) : Prop where
  settled : p.Settled
  root_unbound : p.bindings.ofNode root = []
  body_unbound : p.bindings.ofNode body = []
  bound_lt : ∀ n, p.bindings.ofNode n ≠ [] → n < p.document.size
  fresh : ∃ parts, p.balloon = p.options.balloonWith parts

theorem Page.Leads.live (h : Leads p q) (hp : p.Live) : q.Live where
  settled := h.settled
  root_unbound := by rw [h.bindings]; exact hp.root_unbound
  body_unbound := by rw [h.bindings]; exact hp.body_unbound
  bound_lt n hn := by
    rw [h.bindings] at hn
    exact Nat.lt_of_lt_of_le (hp.bound_lt n hn) (Document.Leads.size_le h.steps)
  fresh := by
    obtain ⟨parts, hparts⟩ := hp.fresh
    obtain ⟨parts', hparts'⟩ := Document.Leads.make h.steps
    exact ⟨parts', by rw [hparts', hparts, h.options]; rfl⟩

theorem Balloon.adopt_make (b : Balloon) (d : Document) :
    ∃ parts, (b.adopt d).2.1 = { b with parts := parts } := by
  rw [adopt]
  split
  · exact ⟨b.parts, rfl⟩
  · split
    · exact ⟨b.parts, rfl⟩
    · split
      · exact ⟨_, rfl⟩
      · split
        · exact ⟨b.parts, rfl⟩
        · exact ⟨_, rfl⟩

theorem PageSpec.live_of_build (h : spec.build = .ok p) : p.Live := by
  have hsettled := settled_of_build h
  obtain ⟨hholds, rfl⟩ := PageSpec.of_build_ok h
  rw [Page.ofDocument_loaded] at hsettled ⊢
  refine ⟨hsettled, Bindings.ofNode_loaded_of_lt (by decide),
    Bindings.ofNode_loaded_of_lt (by decide), fun n hn => ?_, adopt_make _ _⟩
  refine Nat.lt_of_lt_of_le ?_ ((framed_loaded hholds).wellFormed.size_le_adopt _)
  by_contra hlt
  refine hn (Bindings.ofNode_loaded_of_le ?_)
  rw [← Document.size_loaded]
  exact Nat.le_of_not_lt hlt

theorem Page.live_after (h : spec.build = .ok p) (es : List Page.Delivery) : (p.after es).Live := by
  have hlive := PageSpec.live_of_build h
  exact (Page.after_leads es hlive.settled).live hlive

namespace Page

/-- Two pages that differ in the numbering of what is seen, and in what is not seen. -/
structure Mirrors (w : NodeId → NodeId → Prop) (p q : Page) : Prop where
  alike : Alike w p.document q.document
  bindings : ∀ n n', w n n' → p.bindings.ofNode n = q.bindings.ofNode n'
  title : q.title = p.title
  options : q.options = p.options

theorem Mirrors.snapshot_eq {w : NodeId → NodeId → Prop} (h : Mirrors w p q)
    (hp : p.Settled) (hq : q.Settled) : q.snapshot = p.snapshot := by
  have hbody : p.snapshot.body = q.snapshot.body := snapshot_body_eq_of_alike h.alike
    hp.hosts.framed.wellFormed hq.hosts.framed.wellFormed h.bindings
  calc q.snapshot = { title := q.title, options := q.options, body := q.snapshot.body } := rfl
    _ = { title := p.title, options := p.options, body := p.snapshot.body } := by
      rw [h.title, h.options, hbody]
    _ = p.snapshot := rfl

/-- The nodes of a loaded page, before it looks for its balloon, mirror those of the described
one. -/
theorem Live.mirrors_loaded (h : p.Live) :
    let q := loaded p.snapshot.body p.options p.title
    q.document.Framed ∧ Mirrors (SamePlace p.document q.document) p q := by
  have hd := h.settled.hosts.framed
  have hsound := sound_snapshot hd.wellFormed
  have hnormal := NodeSpec.normalAll_of_isNormal p.snapshot.body fun t ht => (hsound t ht).1
  have hframed : (Document.loaded (NodeSpec.normalAll p.snapshot.body)).Framed :=
    framed_loaded fun t ht => (hsound t ht).2
  rw [hnormal] at hframed
  have hbody : (loaded p.snapshot.body p.options p.title).snapshot.body = p.snapshot.body :=
    snapshot_body_of_loaded hframed.wellFormed rfl (fun _ _ => rfl) (fun _ _ => rfl)
      fun t ht => (hsound t ht).1
  obtain ⟨halike, hbindings⟩ := alike_of_snapshot_body_eq (p := p)
    (q := loaded p.snapshot.body p.options p.title) hd hframed
    (h.root_unbound.trans (Bindings.ofNode_loaded_of_lt (by decide)).symm)
    (h.body_unbound.trans (Bindings.ofNode_loaded_of_lt (by decide)).symm) hbody.symm
  exact ⟨hframed, halike, hbindings, rfl, rfl⟩

theorem Mirrors.lay_right {w : NodeId → NodeId → Prop} (h : Mirrors w p q) (s : NodeSpec) :
    Mirrors w p { q with document := q.document.lay s } :=
  ⟨h.alike.lay_right s, h.bindings, h.title, h.options⟩

/-- The nodes of two balloons, paired. -/
def PairedParts (w : NodeId → NodeId → Prop) : Option BalloonParts → Option BalloonParts → Prop :=
  Option.Rel fun x x' => w x.element x'.element ∧ w x.textRegion x'.textRegion

theorem PairedParts.mono {w w' : NodeId → NodeId → Prop} {x x' : Option BalloonParts}
    (h : PairedParts w x x') (hw : ∀ n n', w n n' → w' n n') : PairedParts w' x x' := by
  cases h with
  | none => exact .none
  | some hx => exact .some ⟨hw _ _ hx.1, hw _ _ hx.2⟩

/-- The region that one of two paired elements has is paired with that of the other. -/
theorem region_rel {w : NodeId → NodeId → Prop} {d d' : Document} (h : Alike w d d')
    {e e' : NodeId} (he : w e e') :
    Option.Rel w ((d.children e).find? fun n => hasClass d n "text")
      ((d'.children e').find? fun n => hasClass d' n "text") :=
  find?_rel (h.children e e' he) fun _ _ hn => h.hasClass hn "text"

/-- Looking for the balloon adds nothing that is seen, and finds the nodes of the other balloon. -/
theorem Mirrors.adopt {w : NodeId → NodeId → Prop} (hm : Mirrors w p q) (hp : p.Settled)
    (hq : q.document.Framed) (hparts : q.balloon.parts = none)
    (hid : q.balloon.id = p.balloon.id) :
    Mirrors w p q.adopting ∧ (p.document.elementById? p.balloon.id = p.balloon.element? →
      PairedParts w p.balloon.parts q.adopting.balloon.parts) := by
  rw [adopting]
  have hd := hp.hosts.framed.wellFormed
  have hfind := hm.alike.elementById? hd hq.wellFormed p.balloon.id
  rcases adopt_cases hq.wellFormed q.balloon with ⟨parts, hsome, -⟩ | ⟨-, hnone, he⟩ |
    ⟨e', t, -, hfound, ht, hcases⟩
  · rw [hparts] at hsome; cases hsome
  · rw [he]
    refine ⟨hm, fun hown => ?_⟩
    rw [← hid, hnone, hid, hown] at hfind
    cases hx : p.balloon.parts with
    | none => rw [hparts]; exact .none
    | some parts => rw [element?, hx] at hfind; cases hfind
  · obtain ⟨e, hfind', hw⟩ : ∃ e, p.document.elementById? p.balloon.id = some e ∧ w e e' := by
      rw [← hid, hfound, hid] at hfind
      generalize p.document.elementById? p.balloon.id = found at hfind
      cases hfind with
      | some hw => exact ⟨_, rfl, hw⟩
    have hregion := region_rel hm.alike hw
    have htag : p.document.tag? e = some t := (hm.alike.tag? hw).trans ht
    rcases hcases with ⟨region, hr, he⟩ | ⟨hr, hv, he⟩ | ⟨hv, he⟩
    · rw [he]
      refine ⟨⟨hm.alike, hm.bindings, hm.title, hm.options⟩, fun h => ?_⟩
      obtain ⟨region', hx, hr'⟩ := hp.hosts.parts_of_found h hfind'
      rw [hr, hr'] at hregion
      cases hregion with
      | some hwr => rw [hx]; exact .some ⟨hw, hwr⟩
    -- a region can be missing only where none can be put in
    · exfalso
      rcases hp.hosts.finds with h | ⟨e₁, t₁, he₁, ht₁, hv₁, -⟩
      · obtain ⟨_, -, hr'⟩ := hp.hosts.parts_of_found h hfind'
        rw [hr, hr'] at hregion
        cases hregion
      · cases hfind'.symm.trans he₁
        cases htag.symm.trans ht₁
        rw [hv] at hv₁; cases hv₁
    · rw [he]
      refine ⟨hm.lay_right regionSpec, fun h => ?_⟩
      obtain ⟨_, -, hr'⟩ := hp.hosts.parts_of_found h hfind'
      rw [hd.void_empty e t htag hv] at hr'
      cases hr'

/-- The description of a live page loads. The loaded page mirrors it, and so does its balloon where
the reserved id leads to the balloon. -/
theorem Live.reload (h : p.Live) : ∃ q w, p.snapshot.build = .ok q ∧ Mirrors w p q ∧
    (p.document.elementById? p.balloon.id = p.balloon.element? →
      PairedParts w p.balloon.parts q.balloon.parts) := by
  have hsound := sound_snapshot h.settled.hosts.framed.wellFormed
  have hnormal := NodeSpec.normalAll_of_isNormal p.snapshot.body fun t ht => (hsound t ht).1
  have hbuild : p.snapshot.build = .ok _ := PageSpec.build_eq fun t ht => (hsound t ht).2
  have hoptions : p.snapshot.options = p.options := rfl
  have htitle : p.snapshot.title = p.title := rfl
  rw [hnormal, ofDocument_loaded, hoptions, htitle] at hbuild
  obtain ⟨hframed, hm⟩ := h.mirrors_loaded
  obtain ⟨parts, hfresh⟩ := h.fresh
  obtain ⟨hm', hparts⟩ := hm.adopt h.settled hframed rfl (by rw [hfresh]; rfl)
  exact ⟨_, _, hbuild, hm', hparts⟩

/-- The description of a page that was built and had any events delivered to it loads again, and the
loaded page has the same description and the same markup. -/
theorem reload_snapshot (h : spec.build = .ok p) (es : List Delivery) :
    ∃ q, (p.after es).snapshot.build = .ok q ∧ q.snapshot = (p.after es).snapshot ∧
      Markup.render q.document root = Markup.render (p.after es).document root := by
  have hlive := live_after h es
  obtain ⟨q, w, hbuild, hm, -⟩ := hlive.reload
  have hq := PageSpec.settled_of_build hbuild
  refine ⟨q, hbuild, hm.snapshot_eq hlive.settled hq, ?_⟩
  exact (hm.alike.markup hlive.settled.hosts.framed.wellFormed hq.hosts.framed.wellFormed
    hm.alike.root).symm

end Page

/-- A page in which a node that can hold nothing carries the reserved id. -/
def PageSpec.voidBalloon : PageSpec where
  body := [
    { tag := .input, attributes := (∅ : OrderedMap String String).insert "id" "balloon_help" },
    { tag := .span, on := (∅ : OrderedMap Event Action).insert .mouseOver (.showHelp "help")
      children := [{ tag := .span }] }]

theorem Page.reload_voidBalloon : ∃ p q, PageSpec.voidBalloon.build = .ok p ∧
    (p.after [⟨3, .mouseOver, fun _ => true⟩]).snapshot.build = .ok q ∧
      q.snapshot = (p.after [⟨3, .mouseOver, fun _ => true⟩]).snapshot ∧
      Markup.render q.document root =
        Markup.render (p.after [⟨3, .mouseOver, fun _ => true⟩]).document root := by
  have hbuild : PageSpec.voidBalloon.build.isOk = true := by decide +kernel
  cases hp : PageSpec.voidBalloon.build with
  | error e => rw [hp] at hbuild; cases hbuild
  | ok p =>
    obtain ⟨q, hq⟩ := Page.reload_snapshot hp [⟨3, .mouseOver, fun _ => true⟩]
    exact ⟨p, q, rfl, hq⟩

end FormPage
