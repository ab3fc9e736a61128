import FormPage.Proofs.Document.Interchange
import FormPage.Proofs.Page.Ascent
import FormPage.Proofs.Page.Bubbling
import FormPage.Proofs.Page.Built
import FormPage.Proofs.Page.Transparency
import FormPage.Proofs.Row.Apart

/-!
Rows added to different groups. A click on a control adds the row that is ready for it, and leaves
what is ready for a control of another group as it was; two such clicks leave the same tree in
either order, up to the numbers of the new nodes. Main statement: after any events on a built page,
two clicks on controls of different groups can be exchanged.
-/

namespace FormPage

open Document

variable {p q : Page} {d : Document} {b : Balloon} {n a t t₁ t₂ : NodeId} {f : Option String}
  {w : NodeId → NodeId → Prop}

namespace Page

/-! ### Pages that show the same -/

/-- Two pages with the same description, with nodes at the same positions, and with the same links
between them. -/
structure Congruent (p q : Page) : Prop where
  snapshot : q.snapshot = p.snapshot
  positions : ∀ path, (p.document.nodeAt? path).isSome = (q.document.nodeAt? path).isSome
  links : ∀ n n', SamePlace p.document q.document n n' →
    Option.Rel (SamePlace p.document q.document) (p.document.offsetLink? n)
      (q.document.offsetLink? n')

theorem Congruent.refl (h : p.Settled) (hm : p.document.Moored p.balloon) : Congruent p p where
  snapshot := rfl
  positions _ := rfl
  links n n' hn := by
    have hwf := h.hosts.framed.wellFormed
    obtain ⟨path, hpath, hpath'⟩ := hn
    obtain rfl := Option.some.inj (hpath.symm.trans hpath')
    cases hlink : p.document.offsetLink? n with
    | none => exact .none
    | some a =>
      obtain ⟨path', hpath'⟩ := hwf.exists_nodeAt?.mpr
        (h.attached_of_link hm (hwf.exists_nodeAt?.mp ⟨path, hpath⟩) hlink)
      exact .some ⟨path', hpath', hpath'⟩

/-- Pages that mirror each other are congruent right after a layout. -/
theorem Mirrors.congruent (h : Mirrors w p q) (hp : p.Settled) (hq : q.Settled)
    (hlinks : ∀ n, p.document.offsetLink? n = p.document.layoutParent? n)
    (hlinks' : ∀ n, q.document.offsetLink? n = q.document.layoutParent? n) : Congruent p q where
  snapshot := h.snapshot_eq hp hq
  positions path := by
    have hrel := h.alike.nodeAt? path
    generalize p.document.nodeAt? path = s, q.document.nodeAt? path = s' at hrel
    cases hrel <;> rfl
  links n n' hn := by
    have hwf := hp.hosts.framed.wellFormed
    have hwf' := hq.hosts.framed.wellFormed
    have hrel := h.alike.aligned.layoutParent? hwf hwf' (h.alike.rel_of_samePlace hn)
    obtain ⟨path, hpath, -⟩ := hn
    have hattached := hwf.exists_nodeAt?.mp ⟨path, hpath⟩
    rw [hlinks, hlinks']
    generalize hs : p.document.layoutParent? n = s, q.document.layoutParent? n' = s' at hrel
    cases hrel with
    | none => exact .none
    | some ha =>
      have hup := layoutParent?_above hwf hs
      exact .some (h.alike.samePlace hwf ha (hwf.attached_of_above hattached hup.to_reflTransGen))

/-! ### Clicks that add rows -/

/-- The page with the next row of a template. -/
def grown (p : Page) (t : Row.Template) (field : String) : Page :=
  { p with document := (t.grow field p.document).relayout }

@[simp] theorem title_grown (p : Page) (s : Row.Template) (field : String) :
    (p.grown s field).title = p.title := by rw [grown]

@[simp] theorem bindings_grown (p : Page) (s : Row.Template) (field : String) :
    (p.grown s field).bindings = p.bindings := by rw [grown]

@[simp] theorem options_grown (p : Page) (s : Row.Template) (field : String) :
    (p.grown s field).options = p.options := by rw [grown]

@[simp] theorem balloon_grown (p : Page) (s : Row.Template) (field : String) :
    (p.grown s field).balloon = p.balloon := by rw [grown]

theorem document_grown (p : Page) (s : Row.Template) (field : String) :
    (p.grown s field).document =
      (p.document.graftAhead s.container s.anchor (s.row field (s.index + 1))).relayout := rfl

theorem size_grown (p : Page) (s : Row.Template) (field : String) :
    (p.grown s field).document.size =
      p.document.size + (s.row field (s.index + 1)).flat.length := by
  rw [document_grown, size_relayout, size_graftAhead]

/-- The links are those of the last layout. -/
theorem offsetLink?_grown (p : Page) (s : Row.Template) (field : String) (n : NodeId) :
    (p.grown s field).document.offsetLink? n = (p.grown s field).document.layoutParent? n := by
  rw [document_grown, offsetLink?_relayout, (sameButLinks_relayout _).layoutParent?]

/-- Only the last layout counts. -/
theorem document_grown_grown (p : Page) (s₁ s₂ : Row.Template) (field₁ field₂ : String) :
    ((p.grown s₁ field₁).grown s₂ field₂).document =
      ((p.document.graftAhead s₁.container s₁.anchor (s₁.row field₁ (s₁.index + 1))).graftAhead
        s₂.container s₂.anchor (s₂.row field₂ (s₂.index + 1))).relayout := by
  rw [document_grown, document_grown, relayout_graftAhead_relayout]

section Click

variable (hp : p.Settled) (ha : p.bindings.action? t .click = some (.addField f))

include hp in
/-- A row that is ready leads to a page with the invariant, on which it is attached. -/
theorem grown_leads (hr : p.document.AtOrAbove root t) {s : Row.Template} {field : String}
    (hs : Row.Template.ready? p.document t field = some s) :
    Leads p (p.grown s field) ∧ (p.grown s field).document.AtOrAbove root p.document.size := by
  obtain ⟨-, hcontainer, hadd⟩ := Row.add_of_ready hp hr hs
  have hleads := Document.Settled.addRow hp t field
  rw [hadd] at hleads
  have hframed := hp.hosts.framed
  have hsteps : p.document.Leads p.balloon (p.grown s field).document
      (p.grown s field).balloon := by
    rw [balloon_grown]
    exact hleads
  exact ⟨⟨hsteps, title_grown _ _ _, bindings_grown _ _ _, options_grown _ _ _⟩,
    hframed.wellFormed.attached_graft hcontainer (hframed.lt_size hcontainer) _ _⟩

include hp ha

theorem click_eq (confirm : String → Bool) :
    p.react t .click confirm = p.run t confirm (.addField f) := by
  have hhandles : p.Handles .click t t (.addField f) := ⟨.refl, ha, fun _ _ hm _ => hm⟩
  exact hhandles.react_eq hp.hosts.framed.wellFormed confirm

/-- A click adds the row that is ready. -/
theorem click_of_ready (hr : p.document.AtOrAbove root t) {s : Row.Template}
    (hs : Row.Template.ready? p.document t (p.fieldFor t f) = some s) (confirm : String → Bool) :
    p.react t .click confirm =
      ({ outcome := .fieldAdded p.document.size }, p.grown s (p.fieldFor t f)) := by
  rw [click_eq hp ha, run, (Row.add_of_ready hp hr hs).2.2]
  rfl

/-- A click changes nothing if no row is ready. -/
theorem click_of_unready (hs : Row.Template.ready? p.document t (p.fieldFor t f) = none)
    (confirm : String → Bool) :
    p.react t .click confirm = ({ outcome := .fieldUnchanged }, p) := by
  rw [click_eq hp ha, run, Row.add_of_unready hs]

/-- A click adds a row exactly if one is ready. -/
theorem click_adds_iff (hr : p.document.AtOrAbove root t) (confirm : String → Bool) :
    (∃ row, (p.react t .click confirm).1.outcome = .fieldAdded row) ↔
      (Row.Template.ready? p.document t (p.fieldFor t f)).isSome := by
  cases hs : Row.Template.ready? p.document t (p.fieldFor t f) with
  | none => simp [click_of_unready hp ha hs]
  | some s => simp [click_of_ready hp ha hr hs]

/-- What a click answers, it answers on the page that it leads to. -/
theorem click_same (hr : p.document.AtOrAbove root t) (confirm : String → Bool) :
    (p.react t .click confirm).1.Same (p.react t .click confirm).2.document
      (p.react t .click confirm).2.document (p.react t .click confirm).1 := by
  cases hs : Row.Template.ready? p.document t (p.fieldFor t f) with
  | none =>
    rw [click_of_unready hp ha hs]
    exact ⟨rfl, rfl, rfl⟩
  | some s =>
    obtain ⟨hleads, hattached⟩ := grown_leads hp hr hs
    obtain ⟨path, hpath⟩ := hleads.settled.hosts.framed.wellFormed.exists_nodeAt?.mpr hattached
    rw [click_of_ready hp ha hr hs]
    exact ⟨⟨path, hpath, hpath⟩, rfl, rfl⟩

end Click

/-! ### Clicks in different groups -/

/-- What is left of a page for the control of another group, when a row was added. -/
structure Spared (p : Page) (t : NodeId) (q : Page) : Prop where
  settled : q.Settled
  attached : q.document.AtOrAbove root t
  bindings : q.bindings = p.bindings
  fieldFor : ∀ f, q.fieldFor t f = p.fieldFor t f
  ready : ∀ field,
    Row.Template.ready? q.document t field = Row.Template.ready? p.document t field

theorem spared_grown (hp : p.Settled) (hr₁ : p.document.AtOrAbove root t₁)
    (hr₂ : p.document.AtOrAbove root t₂) (hapart : Row.Apart p.document t₁ t₂) {s : Row.Template}
    {field : String} (hs : Row.Template.ready? p.document t₁ field = some s) :
    KeptBut s.container p.document (p.grown s field).document ∧ Spared p t₂ (p.grown s field) := by
  obtain ⟨hrow, -, -⟩ := Row.add_of_ready hp hr₁ hs
  have hsettled := (grown_leads hp hr₁ hs).1.settled
  have hlt := hp.hosts.framed.lt_size hr₂
  have hkept : KeptBut s.container p.document (p.grown s field).document :=
    Row.keptBut_grow hp.hosts.framed.wellFormed s field hsettled.hosts.framed.wellFormed
  refine ⟨hkept, hsettled, hkept.sameAbove.atOrAbove hlt hr₂, bindings_grown _ _ _, fun f => ?_,
    fun field' => ?_⟩
  · simp only [fieldFor, Row.fieldName?, options_grown, hkept.attribute? hlt]
  · exact Row.ready?_of_keptBut hkept hp hsettled hr₂ (hapart.clearOf hrow) field'

/-- Two rows that were added to different containers, in either order: the pages mirror each other
under the pairing that swaps the numbers of the rows. -/
theorem mirrors_grown (hq : q.Live) {s₁ s₂ : Row.Template}
    (hp₁ : q.document.parent? s₁.anchor = some s₁.container)
    (hp₂ : q.document.parent? s₂.anchor = some s₂.container)
    (hne : s₁.container ≠ s₂.container) (field₁ field₂ : String) : Mirrors
      (Swapped q.document.size (s₁.row field₁ (s₁.index + 1)).flat.length
        (s₂.row field₂ (s₂.index + 1)).flat.length)
      ((q.grown s₁ field₁).grown s₂ field₂) ((q.grown s₂ field₂).grown s₁ field₁) where
  alike := by
    rw [document_grown_grown, document_grown_grown]
    exact (alike_swapped hq.settled.hosts.framed.wellFormed hp₁ hp₂ hne _ _).relayout
  bindings n n' hn := by
    have hunbound : ∀ n, q.document.size ≤ n → q.bindings.ofNode n = [] := fun n hn =>
      not_ne_iff.mp (mt (hq.bound_lt n) (Nat.not_lt_of_le hn))
    simp only [bindings_grown]
    rcases hn.old_or_new with rfl | ⟨hn, hn'⟩
    · rfl
    · rw [hunbound n hn, hunbound n' hn']
  title := by simp only [title_grown]
  options := by simp only [options_grown]

theorem spared_click (hp : p.Settled) (ha : p.bindings.action? t₁ .click = some (.addField f))
    (hr₁ : p.document.AtOrAbove root t₁) (hr₂ : p.document.AtOrAbove root t₂)
    (hapart : Row.Apart p.document t₁ t₂) (confirm : String → Bool) :
    Spared p t₂ (p.react t₁ .click confirm).2 := by
  cases hs : Row.Template.ready? p.document t₁ (p.fieldFor t₁ f) with
  | none =>
    rw [click_of_unready hp ha hs]
    exact ⟨hp, hr₂, rfl, fun _ => rfl, fun _ => rfl⟩
  | some s =>
    rw [click_of_ready hp ha hr₁ hs]
    exact (spared_grown hp hr₁ hr₂ hapart hs).2

theorem Spared.click_of_unready (h : Spared p t q)
    (ha : p.bindings.action? t .click = some (.addField f))
    (hs : Row.Template.ready? p.document t (p.fieldFor t f) = none) (confirm : String → Bool) :
    q.react t .click confirm = ({ outcome := .fieldUnchanged }, q) :=
  Page.click_of_unready h.settled (h.bindings ▸ ha) (by rw [h.fieldFor, h.ready, hs]) confirm

theorem Spared.click_of_ready (h : Spared p t q)
    (ha : p.bindings.action? t .click = some (.addField f)) {s : Row.Template}
    (hs : Row.Template.ready? p.document t (p.fieldFor t f) = some s) (confirm : String → Bool) :
    q.react t .click confirm =
      ({ outcome := .fieldAdded q.document.size }, q.grown s (p.fieldFor t f)) := by
  have hready : Row.Template.ready? q.document t (q.fieldFor t f) = some s := by
    rw [h.fieldFor, h.ready, hs]
  rw [Page.click_of_ready h.settled (h.bindings ▸ ha) h.attached hready, h.fieldFor]

theorem Spared.click_adds_iff (h : Spared p t q)
    (ha : p.bindings.action? t .click = some (.addField f)) (confirm : String → Bool) :
    (∃ row, (q.react t .click confirm).1.outcome = .fieldAdded row) ↔
      (Row.Template.ready? p.document t (p.fieldFor t f)).isSome := by
  rw [Page.click_adds_iff h.settled (h.bindings ▸ ha) h.attached, h.fieldFor, h.ready]

/-- Both rows that were added are attached. -/
theorem settled_twice (hp : p.Settled) (hr₁ : p.document.AtOrAbove root t₁)
    (hr₂ : p.document.AtOrAbove root t₂) (hapart : Row.Apart p.document t₁ t₂)
    {s₁ s₂ : Row.Template} {field₁ field₂ : String}
    (hs₁ : Row.Template.ready? p.document t₁ field₁ = some s₁)
    (hs₂ : Row.Template.ready? p.document t₂ field₂ = some s₂) :
    let y := (p.grown s₁ field₁).grown s₂ field₂
    y.Settled ∧ y.document.AtOrAbove root p.document.size ∧
      y.document.AtOrAbove root (p.grown s₁ field₁).document.size := by
  have hnew₁ := (grown_leads hp hr₁ hs₁).2
  have hspared := (spared_grown hp hr₁ hr₂ hapart hs₁).2
  obtain ⟨hleads, hnew₂⟩ :=
    grown_leads hspared.settled hspared.attached ((hspared.ready field₂).trans hs₂)
  have hframed := hspared.settled.hosts.framed
  have hkept := Row.keptBut_grow hframed.wellFormed s₂ field₂
    hleads.settled.hosts.framed.wellFormed
  exact ⟨hleads.settled, hkept.sameAbove.atOrAbove (hframed.lt_size hnew₁) hnew₁, hnew₂⟩

/-- Two clicks for rows that are both ready can be exchanged. -/
theorem exchange_of_ready (hq : q.Live) (hr₁ : q.document.AtOrAbove root t₁)
    (hr₂ : q.document.AtOrAbove root t₂) (hapart : Row.Apart q.document t₁ t₂)
    {s₁ s₂ : Row.Template} {field₁ field₂ : String}
    (hs₁ : Row.Template.ready? q.document t₁ field₁ = some s₁)
    (hs₂ : Row.Template.ready? q.document t₂ field₂ = some s₂) :
    let y := (q.grown s₁ field₁).grown s₂ field₂
    let y' := (q.grown s₂ field₂).grown s₁ field₁
    Congruent y y' ∧
      SamePlace y.document y'.document q.document.size (q.grown s₂ field₂).document.size ∧
      SamePlace y.document y'.document (q.grown s₁ field₁).document.size q.document.size := by
  obtain ⟨hrow₁, -, -⟩ := Row.add_of_ready hq.settled hr₁ hs₁
  obtain ⟨hrow₂, -, -⟩ := Row.add_of_ready hq.settled hr₂ hs₂
  have hne := (hapart _ _ _ _ hrow₁ hrow₂).1
  have hmirrors := mirrors_grown hq hrow₁.parent hrow₂.parent hne field₁ field₂
  obtain ⟨hy, hnew₁, hnew₂⟩ := settled_twice hq.settled hr₁ hr₂ hapart hs₁ hs₂
  obtain ⟨hy', -, -⟩ := settled_twice hq.settled hr₂ hr₁ hapart.symm hs₂ hs₁
  have hwf := hy.hosts.framed.wellFormed
  refine ⟨hmirrors.congruent hy hy' (offsetLink?_grown _ _ _) (offsetLink?_grown _ _ _),
    hmirrors.alike.samePlace hwf ?_ hnew₁, hmirrors.alike.samePlace hwf ?_ hnew₂⟩
  · rw [size_grown]
    exact Swapped.first (i := 0) (NodeSpec.length_flat_pos _)
  · rw [size_grown]
    exact Swapped.second (j := 0) (NodeSpec.length_flat_pos _)

/-- Two clicks in different groups can be exchanged, whether their rows can be added or not. -/
theorem Live.exchange {f₁ f₂ : Option String} (hq : q.Live)
    (ha₁ : q.bindings.action? t₁ .click = some (.addField f₁))
    (ha₂ : q.bindings.action? t₂ .click = some (.addField f₂))
    (hr₁ : q.document.AtOrAbove root t₁) (hr₂ : q.document.AtOrAbove root t₂)
    (hapart : Row.Apart q.document t₁ t₂) (confirm : String → Bool) :
    let x := q.react t₁ .click confirm
    let y := x.2.react t₂ .click confirm
    let x' := q.react t₂ .click confirm
    let y' := x'.2.react t₁ .click confirm
    y.2.document.Moored y.2.balloon → Congruent y.2 y'.2 ∧
      x.1.Same y.2.document y'.2.document y'.1 ∧ y.1.Same y.2.document y'.2.document x'.1 := by
  intro x y x' y' hmoored
  have hspared₁ : Spared q t₁ x'.2 := spared_click hq.settled ha₂ hr₂ hr₁ hapart.symm confirm
  have hspared₂ : Spared q t₂ x.2 := spared_click hq.settled ha₁ hr₁ hr₂ hapart confirm
  cases hs₁ : Row.Template.ready? q.document t₁ (q.fieldFor t₁ f₁) with
  | none =>
    -- the first click does nothing, before the second and after it
    have hx : x = ({ outcome := .fieldUnchanged }, q) :=
      click_of_unready hq.settled ha₁ hs₁ confirm
    have hy : y = x' := congrArg (fun r : Reaction × Page => r.2.react t₂ .click confirm) hx
    have hy' : y' = ({ outcome := .fieldUnchanged }, x'.2) :=
      hspared₁.click_of_unready ha₁ hs₁ confirm
    rw [hy] at hmoored
    rw [hx, hy, hy']
    exact ⟨.refl hspared₁.settled hmoored, ⟨rfl, rfl, rfl⟩, click_same hq.settled ha₂ hr₂ confirm⟩
  | some s₁ =>
    cases hs₂ : Row.Template.ready? q.document t₂ (q.fieldFor t₂ f₂) with
    | none =>
      have hx' : x' = ({ outcome := .fieldUnchanged }, q) :=
        click_of_unready hq.settled ha₂ hs₂ confirm
      have hy' : y' = x := congrArg (fun r : Reaction × Page => r.2.react t₁ .click confirm) hx'
      have hy : y = ({ outcome := .fieldUnchanged }, x.2) :=
        hspared₂.click_of_unready ha₂ hs₂ confirm
      rw [hy] at hmoored
      rw [hx', hy, hy']
      exact ⟨.refl hspared₂.settled hmoored, click_same hq.settled ha₁ hr₁ confirm,
        ⟨rfl, rfl, rfl⟩⟩
    | some s₂ =>
      have hx := click_of_ready hq.settled ha₁ hr₁ hs₁ confirm
      have hx' := click_of_ready hq.settled ha₂ hr₂ hs₂ confirm
      have hy := hspared₂.click_of_ready ha₂ hs₂ confirm
      have hy' := hspared₁.click_of_ready ha₁ hs₁ confirm
      obtain ⟨hcongruent, hplace₁, hplace₂⟩ := exchange_of_ready hq hr₁ hr₂ hapart hs₁ hs₂
      simp only [x, y, x', y'] at hx hx' hy hy' ⊢
      rw [hx] at hy ⊢
      rw [hx'] at hy' ⊢
      rw [hy, hy']
      exact ⟨hcongruent, ⟨hplace₁, rfl, rfl⟩, ⟨hplace₂, rfl, rfl⟩⟩

/-- Whatever events were delivered to a built page: clicks on two attached controls that add rows to
different groups lead, in either order, to the same description, to nodes at the same positions and
to the same links between them. Either click has the same outcome in both orders, where a row that
was added is at the same position, and none asks or sends anything more in one order than in the
other. Either click adds a row exactly if one was ready for it before both. -/
theorem clicks_commute {spec : PageSpec} (h : spec.build = .ok p) (es : List Delivery)
    {t₁ t₂ : NodeId} {f₁ f₂ : Option String}
    (ha₁ : (p.after es).bindings.action? t₁ .click = some (.addField f₁))
    (ha₂ : (p.after es).bindings.action? t₂ .click = some (.addField f₂))
    (hr₁ : (p.after es).document.AtOrAbove root t₁)
    (hr₂ : (p.after es).document.AtOrAbove root t₂)
    (hapart : Row.Apart (p.after es).document t₁ t₂) (confirm : String → Bool) :
    let x := (p.after es).react t₁ .click confirm
    let y := x.2.react t₂ .click confirm
    let x' := (p.after es).react t₂ .click confirm
    let y' := x'.2.react t₁ .click confirm
    Congruent y.2 y'.2 ∧ x.1.Same y.2.document y'.2.document y'.1 ∧
      y.1.Same y.2.document y'.2.document x'.1 ∧
      ((∃ row, x.1.outcome = .fieldAdded row) ↔ (Row.Template.ready? (p.after es).document t₁
        ((p.after es).fieldFor t₁ f₁)).isSome) ∧
      ((∃ row, y.1.outcome = .fieldAdded row) ↔ (Row.Template.ready? (p.after es).document t₂
        ((p.after es).fieldFor t₂ f₂)).isSome) := by
  have hlive := live_after h es
  have hmoored := moored_after h (es ++ [⟨t₁, .click, confirm⟩, ⟨t₂, .click, confirm⟩])
  rw [after_append] at hmoored
  obtain ⟨hcongruent, hfirst, hsecond⟩ :=
    hlive.exchange ha₁ ha₂ hr₁ hr₂ hapart confirm hmoored
  have hspared := spared_click hlive.settled ha₁ hr₁ hr₂ hapart confirm
  exact ⟨hcongruent, hfirst, hsecond, click_adds_iff hlive.settled ha₁ hr₁ confirm,
    hspared.click_adds_iff ha₂ confirm⟩

end Page

/-- A page with two groups of rows, each with a control that names its field. -/
def PageSpec.groupsPage : PageSpec where
  body := ["Host", "Port"].map fun field => {
    tag := .table, children := [
      { tag := .tr, children := [
        { tag := .td, text := some (field ++ " 1") },
        { tag := .td, children := [{ tag := .input }] }] },
      { tag := .tr, children := [{ tag := .td, children := [
        { tag := .button,
          on := (∅ : OrderedMap Event Action).insert .click (.addField (some field)) }] }] }] }

namespace Page

/-- A click on the first control. -/
def groupsEvents : List Delivery := [⟨10, .click, fun _ => true⟩]

/-- The second row of the other group and the third of this one are added in either order. -/
theorem clicks_commute_groupsPage : ∃ p, PageSpec.groupsPage.build = .ok p ∧
    let x := (p.after groupsEvents).react 10 .click fun _ => true
    let x' := (p.after groupsEvents).react 19 .click fun _ => true
    let y := x.2.react 19 .click fun _ => true
    let y' := x'.2.react 10 .click fun _ => true
    x.1.outcome = .fieldAdded 25 ∧ y'.1.outcome = .fieldAdded 30 ∧ Congruent y.2 y'.2 ∧
      SamePlace y.2.document y'.2.document 25 30 := by
  have htree : (PageSpec.groupsPage.build.toOption.map fun p =>
      ([10, 19, 2, 11].map (p.after groupsEvents).document.inclusiveAncestors,
        [10, 19].map fun n => (p.after groupsEvents).document.nearestAbove? (some n) .tr,
        [8, 17].map (p.after groupsEvents).document.parent?)) =
      some ([[10, 9, 8, 2, 1, 0], [19, 18, 17, 11, 1, 0], [2, 1, 0], [11, 1, 0]],
        [some 8, some 17], [some 2, some 11]) := by
    decide +kernel
  have hanswers : (PageSpec.groupsPage.build.toOption.map fun p =>
      ([10, 19].map fun n => (p.after groupsEvents).bindings.action? n .click,
        ((p.after groupsEvents).react 10 .click fun _ => true).1.outcome,
        (((p.after groupsEvents).react 19 .click fun _ => true).2.react 10 .click
          fun _ => true).1.outcome)) =
      some ([some (.addField (some "Host")), some (.addField (some "Port"))],
        .fieldAdded 25, .fieldAdded 30) := by
    decide +kernel
  obtain ⟨p, hp, htree⟩ := PageSpec.exists_of_build htree
  rw [hp] at hanswers
  replace hanswers := Option.some.inj hanswers
  simp only [List.map_cons, List.map_nil, List.cons.injEq, Prod.mk.injEq, and_true]
    at htree hanswers
  obtain ⟨⟨hline, hline', hout, hout'⟩, ⟨hrow, hrow'⟩, hparent, hparent'⟩ := htree
  obtain ⟨⟨ha, ha'⟩, hx, hy'⟩ := hanswers
  have hsettled := (live_after hp groupsEvents).settled
  have hwf := hsettled.hosts.framed.wellFormed
  have hr : (p.after groupsEvents).document.AtOrAbove root 10 :=
    hwf.mem_inclusiveAncestors.mp (by rw [hline]; decide)
  have hr' : (p.after groupsEvents).document.AtOrAbove root 19 :=
    hwf.mem_inclusiveAncestors.mp (by rw [hline']; decide)
  have hapart : Row.Apart (p.after groupsEvents).document 10 19 :=
    (Row.rowOf_of_nearestAbove hsettled hr hrow hparent).apart hwf
      (Row.rowOf_of_nearestAbove hsettled hr' hrow' hparent')
      (by rw [← hwf.mem_inclusiveAncestors, hout']; decide)
      (by rw [← hwf.mem_inclusiveAncestors, hout]; decide)
  obtain ⟨hcongruent, hsame, -⟩ :=
    clicks_commute hp groupsEvents ha ha' hr hr' hapart fun _ => true
  refine ⟨p, hp, hx, hy', hcongruent, ?_⟩
  have houtcome := hsame.outcome
  rw [hx, hy'] at houtcome
  exact houtcome

end Page

end FormPage
