import FormPage.Proofs.Page.Twins

/-!
Transparent reloading. Two pages agree if they have the same description, have nodes at the same
positions, and answer every event at two nodes of one position in the same way, after which they
agree again. Main statement: a page on which no element was given the reserved id agrees with its
reloaded description, whatever happened to it before and whatever happens afterwards.
-/

namespace FormPage

open Document Balloon Relation
open NodeSpec (flatAll)

variable {p q : Page} {spec : PageSpec} {w : NodeId → NodeId → Prop} {n n' : NodeId}

namespace Page

/-- Whether two pages cannot be told apart by a sequence of events with the replies of the user,
each of them at any two nodes that are then at the same position. Nodes that once were at the same
position stay so for as long as they are attached. -/
def Agree : List (Event × (String → Bool)) → Page → Page → Prop
  | [], p, q => q.snapshot = p.snapshot
  | (event, confirm) :: events, p, q => q.snapshot = p.snapshot ∧
    (∀ path, (p.document.nodeAt? path).isSome = (q.document.nodeAt? path).isSome) ∧
    ∀ n n', SamePlace p.document q.document n n' →
      let r := p.react n event confirm
      let r' := q.react n' event confirm
      r.1.Same r.2.document r'.2.document r'.1 ∧
      (∀ m m', SamePlace p.document q.document m m' → r.2.document.AtOrAbove root m →
        SamePlace r.2.document r'.2.document m m') ∧
      Agree events r.2 r'.2

/-- Twins agree on every sequence of events. -/
theorem Twins.agree : ∀ (events : List (Event × (String → Bool))) {w : NodeId → NodeId → Prop}
    {p q : Page}, Twins w p q → Agree events p q
  | [], _, _, _, h => h.mirrors.snapshot_eq h.live.settled h.live'.settled
  | (event, confirm) :: events, w, p, q, h => by
    refine ⟨h.mirrors.snapshot_eq h.live.settled h.live'.settled, fun path => ?_,
      fun n n' hn => ?_⟩
    · have hrel := h.mirrors.alike.nodeAt? path
      generalize p.document.nodeAt? path = s, q.document.nodeAt? path = s' at hrel
      cases hrel <;> rfl
    · have hattached : p.document.AtOrAbove root n := by
        obtain ⟨path, hpath, -⟩ := hn
        exact h.live.settled.hosts.framed.wellFormed.exists_nodeAt?.mp ⟨path, hpath⟩
      obtain ⟨w', htwins, hold, hsame⟩ :=
        h.react (h.mirrors.alike.rel_of_samePlace hn) hattached event confirm
      refine ⟨hsame, fun m m' hm hr => ?_, Twins.agree events htwins⟩
      exact htwins.mirrors.alike.samePlace htwins.live.settled.hosts.framed.wellFormed
        (hold m m' (h.mirrors.alike.rel_of_samePlace hm)) hr

/-- On a page that was just built from descriptions without the reserved id, there is no balloon. -/
theorem owns_of_build
    (hid : ∀ s ∈ flatAll spec.body, s.tag ≠ .text →
      s.attributes.get? "id" ≠ some spec.options.balloonId)
    (h : spec.build = .ok p) : Owns (fun n => p.bindings.ofNode n ≠ []) p.document p.balloon := by
  have hlive := PageSpec.live_of_build h
  obtain ⟨hholds, -⟩ := PageSpec.of_build_ok h
  have hloaded := attribute?_loaded hholds hid
  obtain rfl := PageSpec.eq_loaded_of_build hid h
  have hbare : ∀ e, (loaded (NodeSpec.normalAll spec.body) spec.options spec.title).balloon.element?
      ≠ some e := fun e he => Option.some_ne_none e he.symm
  exact ⟨⟨fun e he => absurd he (hbare e), fun n hn => absurd hn (hloaded n)⟩,
    fun e he => absurd he (hbare e),
    fun n hn => ⟨hlive.bound_lt n hn, fun e he => absurd he (hbare e)⟩⟩

/-- Reloading cannot be noticed. -/
theorem reload_agree
    (hid : ∀ s ∈ flatAll spec.body, s.tag ≠ .text →
      s.attributes.get? "id" ≠ some spec.options.balloonId)
    (h : spec.build = .ok p) (es : List Delivery) :
    ∃ q, (p.after es).snapshot.build = .ok q ∧ ∀ events, Agree events (p.after es) q := by
  have hleads := after_leads es (PageSpec.settled_of_build h)
  have hlive := live_after h es
  have howns := Document.Leads.owns hleads.steps (owns_of_build hid h)
  rw [← hleads.bindings] at howns
  obtain ⟨q, w, hbuild, hmirrors, hparts⟩ := hlive.reload
  have htwins : Twins w (p.after es) q := {
    mirrors := hmirrors
    parts := hparts (howns.elementById? hlive.settled)
    live := hlive
    live' := PageSpec.live_of_build hbuild
    owns := howns }
  exact ⟨q, hbuild, fun events => htwins.agree events⟩

end Page

/-- A page with one row, and below it a control that adds rows and explains itself. -/
def PageSpec.rowsPage : PageSpec where
  body := [
    { tag := .tr, children := [
      { tag := .td, text := some "Field 1" }, { tag := .td, children := [{ tag := .input }] }] },
    { tag := .tr, children := [{ tag := .td, children := [
      { tag := .button, children := [{ tag := .span }],
        on := ((∅ : OrderedMap Event Action).insert .click (.addField none)).insert .mouseOver
          (.showHelp "help") }] }] }]

/-- A click on the control, and the balloon shown twice. -/
def Page.rowsEvents : List Page.Delivery :=
  [⟨9, .click, fun _ => true⟩, ⟨10, .mouseOver, fun _ => true⟩, ⟨9, .mouseOver, fun _ => true⟩]

theorem Page.reload_agree_rowsPage : ∃ p q, PageSpec.rowsPage.build = .ok p ∧
    (p.after rowsEvents).snapshot.build = .ok q ∧
      ∀ events, Agree events (p.after rowsEvents) q := by
  have hbuild : PageSpec.rowsPage.build.isOk = true := by decide +kernel
  cases hp : PageSpec.rowsPage.build with
  | error e => rw [hp] at hbuild; cases hbuild
  | ok p =>
    obtain ⟨q, hq⟩ := Page.reload_agree (by decide +kernel) hp rowsEvents
    exact ⟨p, q, rfl, hq⟩

end FormPage
