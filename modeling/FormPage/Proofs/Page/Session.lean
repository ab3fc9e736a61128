import FormPage.Page.Basic
import FormPage.Proofs.Balloon.Showing
import FormPage.Proofs.Page.Load

/-!
Sessions. Whatever events are delivered to a built page, at whatever nodes, its document and its
balloon keep the invariant that building gave them, and its handlers, options and title stay what
they were.
-/

namespace FormPage

open Document Balloon Relation
open NodeSpec (flatAll)

variable {d d' : Document} {b : Balloon} {p q : Page} {n control field : NodeId} {t : Tag}

/-! ### Rows and requests -/

/-- The nodes of a new row carry no attribute but the three of its input. -/
theorem Row.get?_row {t : Template} {name : String} {number : Int} {s : NodeSpec}
    (hs : s ∈ flatAll [t.row name number]) {k : String} (hk : k ∉ ["size", "type", "name"]) :
    s.attributes.get? k = none := by
  simp only [List.mem_cons, List.not_mem_nil, or_false, not_or] at hk
  have hflat : flatAll [t.row name number] = [t.row name number,
      { tag := .td, children := [{ tag := .text, text := some (Label.text name number) }] },
      { tag := .text, text := some (Label.text name number) },
      { tag := .td, children := [{ tag := .input, attributes := t.inputAttributes name number }] },
      { tag := .input, attributes := t.inputAttributes name number }] := rfl
  rw [hflat] at hs
  simp only [List.mem_cons, List.not_mem_nil, or_false] at hs
  rcases hs with rfl | rfl | rfl | rfl | rfl
  · rfl
  · rfl
  · rfl
  · rfl
  · rw [Template.inputAttributes, OrderedMap.get?_insert, if_neg hk.2.2, get?_copied hk.1,
      get?_copied hk.2.1]
    rfl

theorem Request.document_of_found {form : NodeId} {name : String}
    (hform : d.nearestAbove? (some control) .form = some form)
    (hfield : d.namedControl? form name = some field) (value : String) (confirm : String → Bool) :
    (send d control value name confirm).2 =
      d.writeValue field (Intent.text ⟨(d.attribute? control "name").getD "", value⟩) := by
  rw [send_of_found hform hfield]
  dsimp only
  split <;> rfl

/-- A row that is added is grafted in front of an older one; after it the layout is made anew. -/
theorem Document.Settled.addRow (h : d.Settled b) (control : NodeId) (name : String) :
    match Row.add d control name with
    | (some _, d') => Leads d b d'.relayout b
    | (none, d') => Leads d b d' b := by
  have hd := h.hosts.framed
  have hsound := Row.add_kept sound_kept hd.sound control name
  rcases Row.add_cases hd.wellFormed control name with ⟨t, ht, -, hp, he⟩ | ⟨t, he⟩ | he
  · rw [he] at hsound ⊢
    have hcontainer : t.container ≠ root := by
      rintro hroot
      have hmem := (hd.wellFormed.mem_children root t.anchor).mpr (hroot ▸ hp)
      rw [hd.children_root, List.mem_singleton] at hmem
      have htag := Row.tag?_anchor ht
      rw [hmem, hd.tag?_body] at htag
      cases htag
    have hframed := hd.graft hcontainer hsound.1 hsound.2
    have hold : (insertAhead t.anchor d.size (d.children t.container)).filter (· < d.size) =
        d.children t.container := by
      rw [filter_insertAhead (by simp), hd.wellFormed.filter_children]
    have hgraft := h.hosts.extends_graft (s := t.row name (t.index + 1)) hold
      (fun s hs => Row.get?_row hs (by decide)) fun _ => Row.get?_row List.mem_cons_self (by decide)
    have hextends := hgraft.trans hframed.wellFormed.extends_relayout
    exact .extend (.refl h) hextends ⟨h.hosts.of_extends hframed.relayout hextends,
      hframed.wellFormed.linked_relayout _⟩
  · rw [he] at hsound ⊢
    have hframed := hd.lay hsound.1 hsound.2
    have hextends := h.hosts.extends_lay (s := t.row name (t.index + 1)) fun s hs =>
      Row.get?_row (List.mem_append_left [] hs) (by decide)
    exact .extend (.refl h) hextends
      ⟨h.hosts.of_extends hframed hextends, h.linked.lay h.hosts hframed⟩
  · rw [he]; exact .refl h

theorem Document.Framed.ne_of_namedControl (h : d.Framed) {form : NodeId} {name : String}
    (hn : d.namedControl? form name = some n) : n ≠ root ∧ n ≠ body := by
  have htag := tag?_namedControl hn
  constructor <;> rintro rfl
  · rw [tag?_eq_face, h.root_face] at htag; simp at htag
  · rw [h.tag?_body] at htag; simp at htag

theorem Document.Settled.writeValue (h : d.Settled b) (hne : n ≠ root ∧ n ≠ body) {value : String}
    (hsound : WellFormed (d.writeValue n value) ∧ ElementsBare (d.writeValue n value)) :
    Leads d b (d.writeValue n value) b := by
  have hframed := h.hosts.framed.update hne hsound.1 hsound.2 fun _ => rfl
  have hextends := h.hosts.extends_update (n := n)
    (f := fun x => { x with attributes := x.attributes.insert "value" value }) (fun _ => rfl)
    (fun _ => rfl) (fun _ => rfl) fun x k hk => (OrderedMap.get?_insert ..).trans (if_neg hk)
  exact .extend (.refl h) hextends ⟨h.hosts.of_extends hframed hextends,
    h.linked.update h.hosts hframed (fun _ => rfl) (fun _ => rfl) (fun _ => rfl)
      (.inr fun _ => rfl)⟩

/-- A request writes at most the value of its field. -/
theorem Document.Settled.send (h : d.Settled b) (control : NodeId) (value name : String)
    (confirm : String → Bool) : Leads d b (Request.send d control value name confirm).2 b := by
  have hd := h.hosts.framed
  cases hform : d.nearestAbove? (some control) .form with
  | none => simpa only [Request.send, hform] using .refl h
  | some form =>
    cases hfield : d.namedControl? form name with
    | none => simpa only [Request.send, hform, hfield] using .refl h
    | some field =>
      have hsound := Request.send_kept sound_kept hd.sound control value name confirm
      rw [Request.document_of_found hform hfield] at hsound ⊢
      exact h.writeValue (hd.ne_of_namedControl hfield) hsound

/-! ### Events -/

namespace Page

/-- What holds of a page after it was built and after every event. -/
def Settled (p : Page) : Prop := p.document.Settled p.balloon

/-- From a page to later ones: steps of its document and its balloon. -/
structure Leads (p q : Page) : Prop where
  steps : p.document.Leads p.balloon q.document q.balloon
  title : q.title = p.title
  bindings : q.bindings = p.bindings
  options : q.options = p.options

theorem Leads.settled (h : Leads p q) : q.Settled := Document.Leads.settled h.steps

theorem Leads.refl (h : p.Settled) : Leads p p := ⟨.refl h, rfl, rfl, rfl⟩

theorem Leads.trans {r : Page} (h : Leads p q) (h' : Leads q r) : Leads p r where
  steps := Document.Leads.trans h.steps h'.steps
  title := h'.title.trans h.title
  bindings := h'.bindings.trans h.bindings
  options := h'.options.trans h.options

theorem run_leads (h : p.Settled) (n : NodeId) (confirm : String → Bool) (a : Action) :
    Leads p (p.run n confirm a).2 := by
  cases a with
  | addField field =>
    have hadd := Document.Settled.addRow h n (p.fieldFor n field)
    simp only [run]
    split <;> rename_i he <;> rw [he] at hadd
    · exact ⟨hadd, rfl, rfl, rfl⟩
    · exact ⟨hadd, rfl, rfl, rfl⟩
  | setRequest value =>
    exact ⟨Document.Settled.send h n value p.options.requestField confirm, rfl, rfl, rfl⟩
  | showHelp text => exact ⟨Document.Settled.showAt h n text, rfl, rfl, rfl⟩
  | hideHelp => exact ⟨Document.Settled.hide h, rfl, rfl, rfl⟩

/-- Every event leads to a page that satisfies the invariant, whatever node it is delivered to. -/
theorem react_leads (h : p.Settled) (target : NodeId) (event : Event) (confirm : String → Bool) :
    Leads p (p.react target event confirm).2 := by
  rw [react]
  split
  · exact .refl h
  · exact run_leads h _ confirm _

/-- An event at a node, with the replies of the user. -/
structure Delivery where
  target : NodeId
  event : Event
  confirm : String → Bool

/-- The page after the delivery of some events. -/
def after (p : Page) (es : List Delivery) : Page :=
  es.foldl (fun p e => (p.react e.target e.event e.confirm).2) p

theorem after_append (p : Page) (es es' : List Delivery) :
    p.after (es ++ es') = (p.after es).after es' :=
  List.foldl_append

theorem after_leads : ∀ (es : List Delivery) {p : Page}, p.Settled → Leads p (p.after es)
  | [], _, h => .refl h
  | e :: es, _, h => by
    have hstep := react_leads h e.target e.event e.confirm
    exact hstep.trans (after_leads es hstep.settled)

/-! ### Built pages -/

/-- The page that takes over the balloon that its document holds. -/
def adopting (p : Page) : Page :=
  { p with
    document := (p.balloon.adopt p.document).2.2, balloon := (p.balloon.adopt p.document).2.1 }

theorem ofDocument_loaded (ss : List NodeSpec) (options : PageOptions) (title : Option String) :
    ofDocument (.loaded ss) (.loaded ss) options title = (loaded ss options title).adopting := rfl

end Page

/-- A page that describes no element with the reserved id has no balloon when it is built. -/
theorem PageSpec.eq_loaded_of_build {spec : PageSpec}
    (hid : ∀ s ∈ flatAll spec.body, s.tag ≠ .text →
      s.attributes.get? "id" ≠ some spec.options.balloonId)
    (h : spec.build = .ok p) :
    p = Page.loaded (NodeSpec.normalAll spec.body) spec.options spec.title := by
  obtain ⟨hholds, rfl⟩ := PageSpec.of_build_ok h
  have hnone : (Document.loaded (NodeSpec.normalAll spec.body)).elementById?
      spec.options.balloonId = none := by
    refine List.find?_eq_none.mpr ?_
    intro n _ hn
    exact attribute?_loaded hholds hid n (of_decide_eq_true hn)
  rw [Page.ofDocument_loaded]
  simp [Page.adopting, Page.loaded, Balloon.adopt, hnone]

theorem Document.linked_loaded {ss : List NodeSpec} (h : ∀ x ∈ flatAll ss, x.Holds)
    (element : Option NodeId) : (Document.loaded (NodeSpec.normalAll ss)).Linked element :=
  (NodeSpec.buildAllBelow_eq ss ∅ body (t := .body)
    wellFormed_empty rfl rfl h).2.linked_relayout element

open Page in
/-- A page that was built satisfies the invariant. -/
theorem PageSpec.settled_of_build {spec : PageSpec} (h : spec.build = .ok p) : p.Settled := by
  obtain ⟨hholds, rfl⟩ := PageSpec.of_build_ok h
  have hframed := framed_loaded hholds
  rw [ofDocument_loaded]
  exact Document.Settled.adopt hframed (linked_loaded hholds) (.refl _)

end FormPage
