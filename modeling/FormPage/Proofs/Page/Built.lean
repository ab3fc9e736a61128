import FormPage.Proofs.Page.Session

/-!
Built pages. Loading lays the described nodes out, links them, and then looks for the balloon; this
last step may add one node, the region of the balloon, after the links were set. What a built page
consists of is said by `adoption_of_build`, and the rest of this module is read off it.
-/

namespace FormPage

open Document Balloon Relation

variable {d : Document} {p : Page} {n : NodeId} {spec : PageSpec}

namespace Document

/-! ### Loaded documents -/

/-- All nodes of a loaded document are attached. -/
theorem attached_loaded {ss : List NodeSpec} (hd : (Document.loaded ss).Framed)
    (hn : n < (Document.loaded ss).size) : (Document.loaded ss).AtOrAbove root n := by
  induction n using step_induction hd.wellFormed.acyclic with
  | hP n ih =>
    rcases old_or_new Document.empty n with hold | ⟨i, rfl⟩
    · rcases n with _ | _ | n
      · exact .refl
      · exact .single hd.parent?_body
      · exact absurd hold (Nat.not_lt_of_le (Nat.le_add_left 2 n))
    · obtain ⟨x, hx⟩ := exists_node hn
      -- whatever was laid out has a parent
      obtain ⟨q, hq⟩ : ∃ q, (Document.loaded ss).parent? (Document.empty.size + i) = some q := by
        rw [Document.loaded, node?_relayout, graftLast, node?_graft_new] at hx
        obtain ⟨y, hy, -⟩ := Option.map_eq_some_iff.mp hx
        rw [Document.loaded, parent?_relayout, parent?, graftLast, node?_graft_new, hy]
        rcases (NodeSpec.links_of_mem_nodesAll (List.mem_of_getElem? hy)).1 with hp | ⟨r, hp, -⟩
        · exact ⟨_, hp⟩
        · exact ⟨r, hp⟩
      exact .head hq (ih q hq (hd.wellFormed.parent_lt _ q hq))

theorem parent?_lay_first (d : Document) (s : NodeSpec) : (d.lay s).parent? d.size = none := by
  have hnode := node?_addNodes_new d (s.nodes none d.size) 0
  rw [Nat.add_zero, NodeSpec.nodes_eq] at hnode
  rw [lay, NodeSpec.nodes_eq, parent?_of_node hnode]
  rfl

/-- A node that hangs somewhere is the one new node if it is none of the `k` older ones. -/
theorem eq_of_newest {k : Nat} {m q : NodeId} (hm : k ≤ m) (hq : d.parent? m = some q)
    (hsize : d.size = k + 1) : m = k := by
  have hlt := lt_size_of_parent hq
  rw [hsize] at hlt
  exact Nat.le_antisymm (Nat.le_of_lt_succ hlt) hm

end Document

/-! ### The balloon of a built page -/

/-- What looking for the element with an id makes of a document, and the nodes that it finds: there
is no such element; it holds a region; a region is added to it; or it is void, and the region that
was to be added hangs nowhere. -/
inductive Document.Adoption (d : Document) (id : String) : Document → Option BalloonParts → Prop
  | absent (hnone : d.elementById? id = none) : Adoption d id d none
  | whole {e region : NodeId} (hfound : d.elementById? id = some e)
      (hregion : ((d.children e).find? fun n => hasClass d n "text") = some region) :
    Adoption d id d (some ⟨e, region⟩)
  | extended {e : NodeId} {t : Tag} (hfound : d.elementById? id = some e) (ht : d.tag? e = some t)
      (hv : t.isVoid = false)
      (hregion : ((d.children e).find? fun n => hasClass d n "text") = none) :
    Adoption d id (d.graftLast e [regionSpec]) (some ⟨e, d.size⟩)
  | void {e : NodeId} {t : Tag} (hfound : d.elementById? id = some e) (ht : d.tag? e = some t)
      (hv : t.isVoid = true) : Adoption d id (d.lay regionSpec) none

namespace Document.Adoption

variable {d' : Document} {id : String} {parts : Option BalloonParts}

/-- Older nodes stay as they were. -/
theorem old (h : d.Adoption id d' parts) (hn : n < d.size) :
    d'.parent? n = d.parent? n ∧ d'.face? n = d.face? n ∧ d'.offsetLink? n = d.offsetLink? n := by
  cases h with
  | absent | whole => exact ⟨rfl, rfl, rfl⟩
  | extended =>
    exact ⟨parent?_graft_old hn, face?_graft_old hn, offsetLink?_graft_old hn⟩
  | void => exact ⟨parent?_lay_old hn, face?_lay_old hn, offsetLink?_lay_old hn⟩

/-- What is new has no link, and if it hangs anywhere, it is the region of the balloon and hangs
below an older node. -/
theorem new (h : d.Adoption id d' parts) (hn : d.size ≤ n) : d'.offsetLink? n = none ∧
    ∀ q, d'.parent? n = some q → q < d.size ∧ d'.face? n = some regionSpec.face ∧
      ∃ e, parts = some ⟨e, n⟩ := by
  cases h with
  | absent | whole =>
    rw [offsetLink?, parent?, node?_eq_none_iff.mpr hn]
    exact ⟨rfl, fun q hq => by cases hq⟩
  | @extended e _ _ ht =>
    refine ⟨offsetLink?_graft_new hn, fun q hq => ?_⟩
    obtain rfl := eq_of_newest hn hq (by rw [graftLast, size_graft]; rfl)
    rw [graftLast, parent?_graft_first] at hq
    exact ⟨Option.some.inj hq ▸ lt_size_of_tag ht, face?_graft_first d e _ regionSpec [], e, rfl⟩
  | void =>
    refine ⟨offsetLink?_lay_new hn, fun q hq => ?_⟩
    obtain rfl := eq_of_newest hn hq (by rw [size_lay]; rfl)
    rw [parent?_lay_first] at hq
    cases hq

/-- The body is not taken for a balloon. -/
theorem children_body (h : d.Adoption id d' parts) (hd : d.Framed) :
    d'.children Document.body = d.children Document.body := by
  cases h with
  | absent | whole => rfl
  | extended hfound =>
    rw [graftLast, children_graft_old hd.body_lt,
      if_neg (Ne.symm (hd.ne_of_elementById hfound).2.1)]
  | void => rw [children_lay_old hd.body_lt]

end Document.Adoption

/-! ### Built pages -/

/-- What is read from the outcome of a build is read from the page. -/
theorem PageSpec.exists_of_build {α : Type} {f : Page → α} {a : α}
    (h : spec.build.toOption.map f = some a) : ∃ p, spec.build = .ok p ∧ f p = a := by
  cases hp : spec.build with
  | error e => rw [hp] at h; cases h
  | ok p => rw [hp] at h; exact ⟨p, rfl, Option.some.inj h⟩

/-- A built page is the loaded one after it looked for its balloon. -/
theorem PageSpec.adoption_of_build (h : spec.build = .ok p) :
    (Document.loaded (NodeSpec.normalAll spec.body)).Framed ∧
      p.bindings = .loaded (NodeSpec.normalAll spec.body) ∧
      p.balloon.id = spec.options.balloonId ∧
      (Document.loaded (NodeSpec.normalAll spec.body)).Adoption spec.options.balloonId
        p.document p.balloon.parts := by
  obtain ⟨hholds, rfl⟩ := PageSpec.of_build_ok h
  have hframed := framed_loaded hholds
  rw [Page.ofDocument_loaded, Page.adopting]
  refine ⟨hframed, rfl, ?_⟩
  -- the balloon of a loaded page has no nodes, so that only a search gives it some
  rcases adopt_cases hframed.wellFormed
    (Page.loaded (NodeSpec.normalAll spec.body) spec.options spec.title).balloon with
    ⟨_, hparts, -⟩ | ⟨hparts, hnone, he⟩ |
    ⟨e, t, hparts, hfound, ht, ⟨_, hregion, he⟩ | ⟨hregion, hv, he⟩ | ⟨hv, he⟩⟩
  · cases hparts
  all_goals rw [show (Page.loaded _ _ _).balloon.adopt (Page.loaded _ _ _).document = _ from he]
  · exact ⟨rfl, .absent hnone⟩
  · exact ⟨rfl, .whole hfound hregion⟩
  · exact ⟨rfl, .extended hfound ht hv hregion⟩
  · exact ⟨rfl, .void hfound ht hv⟩

/-- What hangs below a node of a built page is attached. -/
theorem PageSpec.attached_of_build (h : spec.build = .ok p) {q : NodeId}
    (hq : p.document.parent? n = some q) : p.document.AtOrAbove root n := by
  obtain ⟨hd, -, -, hadoption⟩ := PageSpec.adoption_of_build h
  have hsame := sameAbove_old hd.wellFormed fun _ hm => (hadoption.old hm).1
  by_cases hn : n < (Document.loaded (NodeSpec.normalAll spec.body)).size
  · exact hsame.atOrAbove hn (attached_loaded hd hn)
  · have hlt := ((hadoption.new (Nat.le_of_not_lt hn)).2 q hq).1
    exact .head hq (hsame.atOrAbove hlt (attached_loaded hd hlt))

/-- A page without content has no handlers. -/
theorem PageSpec.bindings_of_empty (h : spec.build = .ok p)
    (hbody : p.document.children Document.body = []) : p.bindings = ∅ := by
  obtain ⟨hd, hbindings, -, hadoption⟩ := PageSpec.adoption_of_build h
  rw [hadoption.children_body hd, children_loaded_body] at hbody
  cases hss : NodeSpec.normalAll spec.body with
  | nil => rw [hbindings, hss]; rfl
  | cons s ss => rw [hss] at hbody; cases hbody

end FormPage
