import FormPage.Proofs.Document.Search
import FormPage.Proofs.Page.Course
import FormPage.Proofs.Page.Matching
import Mathlib.Order.WellFounded

/-!
Searches on a page come to an end. A search goes on at a positioned ancestor only from a node
without a parent, and the links of the layout may be stale there: what was taken out of the balloon
keeps its links. But a link leads up the tree in which its node hangs, or else to the region of the
balloon or above it (`Moored`), and from there the parents lead to the root. So a search leaves a
detached tree once and does not come back, whatever events were delivered (`ascends_after`).
-/

namespace FormPage

open Document Balloon Relation

variable {d d' : Document} {b b' : Balloon} {p : Page} {n m a region : NodeId}

namespace Document

/-! ### Where links lead -/

/-- Every link leads up the tree of its node, or to the region of the balloon or above it. -/
def Moored (d : Document) (b : Balloon) : Prop :=
  ∀ n a, d.offsetLink? n = some a → d.Above a n ∨
    ∃ parts, b.parts = some parts ∧ d.AtOrAbove a parts.textRegion

/-- Links stay moored where no older node gets another link or parent, and no new node a link. -/
theorem Moored.of_old (h : d.Moored b) (hd : WellFormed d)
    (hparts : ∀ parts, b.parts = some parts → parts.textRegion < d.size ∧ b'.parts = some parts)
    (hparent : ∀ n < d.size, d'.parent? n = d.parent? n)
    (hlink : ∀ n < d.size, d'.offsetLink? n = d.offsetLink? n)
    (hnew : ∀ n, d.size ≤ n → d'.offsetLink? n = none) : d'.Moored b' := by
  have hsame := sameAbove_old hd hparent
  intro n a ha
  have hlt : n < d.size := by
    by_contra hn
    rw [hnew n (Nat.le_of_not_lt hn)] at ha
    cases ha
  rw [hlink n hlt] at ha
  rcases h n a ha with hup | ⟨parts, hb, hup⟩
  · exact .inl (hsame.above hlt hup)
  · obtain ⟨hregion, hb'⟩ := hparts parts hb
    exact .inr ⟨parts, hb', hsame.atOrAbove hregion hup⟩

theorem Hosts.region_lt (h : d.Hosts b) (parts : BalloonParts) (hparts : b.parts = some parts) :
    parts.textRegion < d.size ∧ b.parts = some parts :=
  ⟨(h.carries parts hparts).region_lt h.framed.wellFormed, hparts⟩

theorem Moored.update (h : d.Moored b) (hd : d.Hosts b) {f : Node → Node}
    (hparent : ∀ x, (f x).parent = x.parent) (hlink : ∀ x, (f x).offsetParent = x.offsetParent) :
    (d.update n f).Moored b := by
  refine h.of_old hd.framed.wellFormed hd.region_lt (fun _ _ => parent?_update hparent)
    (fun _ _ => offsetLink?_update hlink) fun m hm => ?_
  rw [offsetLink?_update hlink, offsetLink?, node?_eq_none_iff.mpr hm]
  rfl

theorem Moored.graft (h : d.Moored b) (hd : WellFormed d)
    (hparts : ∀ parts, b.parts = some parts → parts.textRegion < d.size ∧ b'.parts = some parts)
    (p : NodeId) (place : List NodeId → List NodeId) (ss : List NodeSpec) :
    (d.graft p place ss).Moored b' :=
  h.of_old hd hparts (fun _ hm => parent?_graft_old hm) (fun _ hm => offsetLink?_graft_old hm)
    fun _ hm => offsetLink?_graft_new hm

theorem Moored.lay (h : d.Moored b) (hd : WellFormed d)
    (hparts : ∀ parts, b.parts = some parts → parts.textRegion < d.size ∧ b.parts = some parts)
    (s : NodeSpec) : (d.lay s).Moored b :=
  h.of_old hd hparts (fun _ hm => parent?_lay_old hm) (fun _ hm => offsetLink?_lay_old hm)
    fun _ hm => offsetLink?_lay_new hm

/-- After a new layout every link leads up the tree. -/
theorem WellFormed.moored_relayout (h : WellFormed d) (b : Balloon) : d.relayout.Moored b := by
  intro n a ha
  rw [offsetLink?_relayout] at ha
  exact .inl (above_relayout.mpr (layoutParent?_above h ha))

theorem WellFormed.parent?_cleared_of_ne (h : WellFormed d) {q : NodeId}
    (hq : d.parent? n = some q) (hne : q ≠ region) :
    (Balloon.cleared d region).parent? n = some q := by
  rw [Balloon.parent?_cleared h, hq, if_neg]
  rintro ⟨⟩
  exact hne rfl

/-- What lies between a node and another one below a region keeps its place when the region is
cleared. -/
theorem WellFormed.atOrAbove_cleared_of_below (h : WellFormed d) (ha : d.Above region a)
    (hr : d.AtOrAbove a n) : (Balloon.cleared d region).AtOrAbove a n := by
  induction hr using ReflTransGen.head_induction_on with
  | refl => exact .refl
  | @head n q hs hr ih =>
    refine .head (h.parent?_cleared_of_ne hs ?_) ih
    rintro rfl
    -- the region would lie above itself
    exact h.not_above_self _ (TransGen.trans_right hr ha)

/-- What lies above a node still does after a region was cleared, unless it is the region or lies
above that. -/
theorem WellFormed.above_cleared (h : WellFormed d) (hup : d.Above a n) :
    (Balloon.cleared d region).Above a n ∨ d.AtOrAbove a region := by
  obtain ⟨q, hq, hr⟩ := TransGen.head'_iff.mp hup
  by_cases hn : d.Above region n
  · rcases reaches_total hn.to_reflTransGen hup.to_reflTransGen with hreg | hreg
    · exact .inr hreg
    · rcases reflTransGen_iff_eq_or_transGen.mp hreg with heq | hreg
      · exact .inr (heq ▸ .refl)
      · -- both nodes are taken out together
        refine .inl (TransGen.head' (h.parent?_cleared_of_ne hq ?_)
          (h.atOrAbove_cleared_of_below hreg hr))
        rintro rfl
        exact h.not_above_self _ (TransGen.trans_right hr hreg)
  · refine .inl (TransGen.head' (h.parent?_cleared_of_ne hq ?_)
      (atOrAbove_cleared h (fun hregion => hn (.head hq hregion)) hr))
    rintro rfl
    exact hn (.single hq)

theorem Moored.cleared (h : d.Moored b) (hd : WellFormed d) {parts : BalloonParts}
    (hparts : b.parts = some parts) : (Balloon.cleared d parts.textRegion).Moored b := by
  have hself : ¬ d.Above parts.textRegion parts.textRegion := hd.not_above_self _
  intro n a ha
  rw [offsetLink?_cleared hd] at ha
  rcases h n a ha with hup | ⟨parts', hparts', hup⟩
  · rcases hd.above_cleared hup with hup | hup
    · exact .inl hup
    · exact .inr ⟨parts, hparts, atOrAbove_cleared hd hself hup⟩
  · cases hparts.symm.trans hparts'
    exact .inr ⟨parts, hparts, atOrAbove_cleared hd hself hup⟩

/-- Every change keeps links moored. -/
theorem Changes.moored (hd : d.Settled b) (hc : Changes d b d' b') (h : d.Moored b) :
    d'.Moored b' := by
  have hwf := hd.hosts.framed.wellFormed
  cases hc with
  | lay s => exact h.lay hwf hd.hosts.region_lt s
  | row s _ _ _ hgrafted => exact hgrafted.moored_relayout b
  | write n value => exact h.update hd.hosts (fun _ => rfl) fun _ => rfl
  | restyle hn f => exact h.update hd.hosts (fun _ => rfl) fun _ => rfl
  | clear hparts => exact h.cleared hwf hparts
  | fill hparts text => exact h.graft hwf hd.hosts.region_lt _ _ _
  | build hparts =>
    refine h.graft hwf (fun parts hb => ?_) _ _ _
    rw [hparts] at hb
    cases hb

/-- A node that lies above the region of the balloon, or is the region, is attached. -/
theorem Settled.attached_of_region (h : d.Settled b) {parts : BalloonParts}
    (hparts : b.parts = some parts) (ha : d.AtOrAbove a parts.textRegion) :
    d.AtOrAbove root a := by
  have hwf := h.hosts.framed.wellFormed
  have hcarries := h.hosts.carries parts hparts
  have hattached : d.AtOrAbove root parts.textRegion :=
    .head (hcarries.parent?_region hwf) hcarries.attached
  exact hwf.attached_of_above hattached ha

/-- A link of an attached node leads to an attached node. -/
theorem Settled.attached_of_link (h : d.Settled b) (hm : d.Moored b) (hn : d.AtOrAbove root n)
    (ha : d.offsetLink? n = some a) : d.AtOrAbove root a := by
  rcases hm n a ha with hup | ⟨parts, hparts, hregion⟩
  · exact h.hosts.framed.wellFormed.attached_of_above hn hup.to_reflTransGen
  · exact h.attached_of_region hparts hregion

/-! ### Steps that close no circle -/

/-- From an attached node a search goes up to the root and ends there. -/
theorem Settled.acc_of_attached (h : d.Settled b) (n : NodeId) (hn : d.AtOrAbove root n) :
    Acc (fun a n => d.upward? n = some a) n := by
  have hwf := h.hosts.framed.wellFormed
  induction n using step_induction hwf.acyclic with
  | hP n ih =>
    refine Acc.intro n fun m hm => ?_
    rw [h.upward?_eq hn] at hm
    exact ih m hm (hwf.attached_of_above hn (.single hm))

/-- A search that starts in a detached tree goes up in it, and from its top to an attached node. -/
theorem Settled.acc_upward (h : d.Settled b) (hm : d.Moored b) (n : NodeId) :
    Acc (fun a n => d.upward? n = some a) n := by
  have hwf := h.hosts.framed.wellFormed
  induction n using step_induction hwf.acyclic with
  | hP n ih =>
    refine Acc.intro n fun m hup => ?_
    cases hp : d.parent? n with
    | some q =>
      rw [upward?, hp, Option.some_or, Option.some.injEq] at hup
      exact hup ▸ ih q hp
    | none =>
      rw [upward?, hp, Option.none_or, offsetParent?, h.hosts.framed.reports, if_pos rfl] at hup
      rcases hm n m hup with habove | ⟨parts, hparts, hregion⟩
      · obtain ⟨q, hq, -⟩ := TransGen.head'_iff.mp habove
        rw [Step, hp] at hq
        cases hq
      · exact h.acc_of_attached m (h.attached_of_region hparts hregion)

theorem Settled.acyclic_upward (h : d.Settled b) (hm : d.Moored b) :
    Acyclic d.upward? d.size := by
  refine h.hosts.framed.wellFormed.acyclic_upward fun n hn => ?_
  have hwf : WellFounded fun a n => d.upward? n = some a := ⟨h.acc_upward hm⟩
  have hswap : TransGen (fun a n => d.upward? n = some a) n n := transGen_swap.mp hn
  exact hwf.transGen.irrefl.irrefl n hswap

/-! ### Loaded documents -/

/-- Taking over a balloon keeps links moored. -/
theorem Moored.adopt (h : d.Moored b) (hd : WellFormed d) (hnone : b.parts = none) :
    (b.adopt d).2.2.Moored (b.adopt d).2.1 := by
  have hvacuous : ∀ parts, b.parts ≠ some parts := fun parts hb => by
    rw [hnone] at hb
    cases hb
  rcases adopt_cases hd b with ⟨_, -, he⟩ | ⟨-, -, he⟩ |
    ⟨element, t, -, -, -, ⟨region, -, he⟩ | ⟨-, -, he⟩ | ⟨-, he⟩⟩
  · rw [he]
    exact h
  · rw [he]
    exact h
  · rw [he]
    intro n a ha
    rcases h n a ha with hup | ⟨parts, hb, -⟩
    · exact .inl hup
    · exact absurd hb (hvacuous parts)
  · rw [he]
    dsimp only
    exact h.graft hd (fun parts hb => absurd hb (hvacuous parts)) _ _ _
  · rw [he]
    dsimp only
    exact h.lay hd (fun parts hb => absurd hb (hvacuous parts)) _

end Document

theorem PageSpec.moored_of_build {spec : PageSpec} (h : spec.build = .ok p) :
    p.document.Moored p.balloon := by
  obtain ⟨hholds, rfl⟩ := PageSpec.of_build_ok h
  have hgrown := (NodeSpec.buildAllBelow_eq spec.body ∅ Document.body (t := .body)
    wellFormed_empty rfl rfl hholds).2
  rw [Page.ofDocument_loaded]
  exact Moored.adopt (hgrown.moored_relayout _) (framed_loaded hholds).wellFormed rfl

/-! ### Sessions -/

namespace Page

theorem moored_after {spec : PageSpec} (h : spec.build = .ok p) (es : List Delivery) :
    (p.after es).document.Moored (p.after es).balloon :=
  (course_after es (PageSpec.settled_of_build h)).invariant
    (fun _ _ _ _ hd hc _ hm => hc.moored hd hm) (PageSpec.moored_of_build h)

/-- Whatever events were delivered to a built page, to whatever nodes: no node is reached again by
going from parent to parent and from nodes without one to positioned ancestors. So every search
upwards, for whatever tag and from whatever node, ends without a limit being set to it, and its
answer is the nearest match. -/
theorem ascends_after {spec : PageSpec} (h : spec.build = .ok p) (es : List Delivery) :
    (∀ n, ¬ TransGen (Step (p.after es).document.upward?) n n) ∧
      ∀ (start : Option NodeId) (tag : Tag), Ascends (p.after es).document tag start
        ((p.after es).document.nearestAbove? start tag) := by
  have hsettled : (p.after es).Settled := (after_leads es (PageSpec.settled_of_build h)).settled
  have hacyclic := Document.Settled.acyclic_upward hsettled (moored_after h es)
  exact ⟨hacyclic.irrefl, fun start tag => ascends_nearestAbove hacyclic tag start⟩

/-- The button of a row that was taken out of the balloon still finds the body. -/
theorem ascends_balloonPage : ∃ p, PageSpec.balloonPage.build = .ok p ∧
    (∀ n, ¬ TransGen (Step (p.after balloonEvents).document.upward?) n n) ∧
    Ascends (p.after balloonEvents).document .body (some 11) (some body) := by
  have hfound : (PageSpec.balloonPage.build.toOption.map fun p =>
      (p.after balloonEvents).document.nearestAbove? (some 11) .body) = some (some body) := by
    decide +kernel
  cases hp : PageSpec.balloonPage.build with
  | error e => rw [hp] at hfound; cases hfound
  | ok p =>
    obtain ⟨hcircle, hends⟩ := ascends_after hp balloonEvents
    rw [hp] at hfound
    have hanswer : (p.after balloonEvents).document.nearestAbove? (some 11) .body = some body :=
      Option.some.inj hfound
    exact ⟨p, rfl, hcircle, hanswer ▸ hends (some 11) .body⟩

end Page

end FormPage
