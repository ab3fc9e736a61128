import FormPage.Proofs.Page.Built
import FormPage.Proofs.Page.Steady

/-!
Help goes to the same place throughout a session (`placement_after`). A node whose first child lies
outside of the balloon keeps its place because nothing drifts there. A node that has no child when
the page is loaded gets at most a text as its first child, for which the layout reports no
positioned ancestor, so that it never has a place; but for the body, below which a balloon may be
built, and if that is empty there is no handler that could build one.
-/

namespace FormPage

open Document Balloon Relation

variable {d d' d₀ : Document} {b b' b₀ : Balloon} {p : Page} {n : NodeId} {spec : PageSpec}

namespace Document

/-! ### Nodes that show at most a text first -/

/-- The layout reports no positioned ancestor for a text. -/
def TextsUnlinked (d : Document) : Prop := ∀ n, d.tag? n = some .text → d.offsetLink? n = none

/-- A first child, if there is one, is a text. -/
def TextFirst (d : Document) (n : NodeId) : Prop :=
  ∀ c, d.firstChild? n = some c → d.tag? c = some .text

theorem TextFirst.balloonPlacement?_eq (h : d.TextFirst n) (hd : d.TextsUnlinked) (nudge : Nudge) :
    d.balloonPlacement? n nudge = none := by
  rw [balloonPlacement?]
  cases hc : d.firstChild? n with
  | none => rfl
  | some c =>
    have hlink : d.offsetParent? c = none := by
      rw [offsetParent?, hd c (h c hc), ite_self]
    simp [hlink]

theorem layoutParent?_of_text (h : d.tag? n = some .text) : d.layoutParent? n = none := by
  obtain ⟨x, hx, htag⟩ := Option.map_eq_some_iff.mp h
  simp [layoutParent?, hx, htag]

theorem textsUnlinked_relayout (d : Document) : d.relayout.TextsUnlinked := by
  intro n hn
  rw [tag?_eq_face, face?_relayout, ← tag?_eq_face] at hn
  rw [offsetLink?_relayout, layoutParent?_of_text hn]

theorem TextsUnlinked.of_old (h : d.TextsUnlinked)
    (htag : ∀ n < d.size, d'.tag? n = d.tag? n)
    (hlink : ∀ n < d.size, d'.offsetLink? n = d.offsetLink? n)
    (hnew : ∀ n, d.size ≤ n → d'.offsetLink? n = none) : d'.TextsUnlinked := by
  intro n hn
  by_cases hlt : n < d.size
  · rw [htag n hlt] at hn
    rw [hlink n hlt, h n hn]
  · exact hnew n (Nat.le_of_not_lt hlt)

theorem TextsUnlinked.graft (h : d.TextsUnlinked) (p : NodeId)
    (place : List NodeId → List NodeId) (ss : List NodeSpec) :
    (d.graft p place ss).TextsUnlinked :=
  h.of_old (fun _ hn => tag?_graft_old hn) (fun _ hn => offsetLink?_graft_old hn)
    fun _ hn => offsetLink?_graft_new hn

theorem TextsUnlinked.lay (h : d.TextsUnlinked) (s : NodeSpec) : (d.lay s).TextsUnlinked :=
  h.of_old (fun _ hn => tag?_lay_old hn) (fun _ hn => offsetLink?_lay_old hn)
    fun _ hn => offsetLink?_lay_new hn

theorem TextsUnlinked.update (h : d.TextsUnlinked) {f : Node → Node}
    (htag : ∀ x, (f x).tag = x.tag) (hlink : ∀ x, (f x).offsetParent = x.offsetParent) :
    (d.update n f).TextsUnlinked := by
  intro m hm
  rw [offsetLink?_update hlink]
  rw [tag?_update htag] at hm
  exact h m hm

theorem Changes.textsUnlinked (hd : d.Settled b) (hc : Changes d b d' b') (h : d.TextsUnlinked) :
    d'.TextsUnlinked := by
  have hwf := hd.hosts.framed.wellFormed
  cases hc with
  | lay s => exact h.lay s
  | row s _ _ _ _ => exact textsUnlinked_relayout _
  | write n value => exact h.update (fun _ => rfl) fun _ => rfl
  | restyle hn f => exact h.update (fun _ => rfl) fun _ => rfl
  | clear hparts =>
    intro n hn
    rw [tag?_cleared hwf] at hn
    rw [offsetLink?_cleared hwf, h n hn]
  | fill hparts text => exact h.graft _ _ _
  | build hparts => exact h.graft _ _ _

theorem TextFirst.of_first (h : d.TextFirst n) (hd : WellFormed d)
    (htag : ∀ c < d.size, d'.tag? c = d.tag? c)
    (hfirst : ∀ c, d'.firstChild? n = some c →
      d.firstChild? n = some c ∨ d'.tag? c = some .text) : d'.TextFirst n := by
  intro c hc
  rcases hfirst c hc with hold | htext
  · rw [htag c (hd.child_lt n c (List.mem_of_head? hold)), h c hold]
  · exact htext

theorem TextFirst.update (h : d.TextFirst n) (hd : WellFormed d) {m : NodeId} {f : Node → Node}
    (hchildren : ∀ x, (f x).children = x.children) (htag : ∀ x, (f x).tag = x.tag) :
    (d.update m f).TextFirst n := by
  refine h.of_first hd (fun _ _ => tag?_update htag) fun c hc => .inl ?_
  rw [firstChild?, children_update hchildren] at hc
  exact hc

/-- Nodes other than the body get at most a text as their first child. -/
theorem Changes.textFirst (hd : d.Settled b) (hc : Changes d b d' b') (hn : n < d.size)
    (hne : n ≠ body) (h : d.TextFirst n) : d'.TextFirst n := by
  have hwf := hd.hosts.framed.wellFormed
  cases hc with
  | lay s =>
    refine h.of_first hwf (fun _ hc => tag?_lay_old hc) fun c hc => .inl ?_
    rw [firstChild?, children_lay_old hn] at hc
    exact hc
  | row s hparent _ hprevious _ =>
    refine h.of_first hwf (fun c hc => ?_) fun c hc => .inl ?_
    · rw [tag?_eq_face, face?_relayout, ← tag?_eq_face, tag?_graft_old hc]
    · rw [firstChild?, children_relayout, children_graft_old hn] at hc
      split at hc
      · rename_i hnp
        rw [previousSibling?, hparent, Option.bind_some] at hprevious
        rw [head?_insertAhead hprevious, ← hnp] at hc
        exact hc
      · exact hc
  | write m value => exact h.update hwf (fun _ => rfl) fun _ => rfl
  | restyle hm f => exact h.update hwf (fun _ => rfl) fun _ => rfl
  | clear hparts =>
    refine h.of_first hwf (fun _ _ => tag?_cleared hwf _ _) fun c hc => .inl ?_
    rw [firstChild?, children_cleared hwf] at hc
    split at hc
    · cases hc
    · exact hc
  | @fill parts hparts text =>
    refine h.of_first hwf (fun _ hc => tag?_graft_old hc) fun c hc => ?_
    rw [firstChild?, graftLast, children_graft_old hn] at hc
    split at hc
    · rename_i hnp
      rw [List.head?_append, Option.or_eq_some_iff, ← hnp] at hc
      rcases hc with hc | ⟨-, hc⟩
      · exact .inl hc
      · cases hc
        exact .inr (Building.tag?_graftLast_size d _ (textSpec text))
    · exact .inl hc
  | build hparts =>
    refine h.of_first hwf (fun _ hc => tag?_graft_old hc) fun c hc => .inl ?_
    rw [firstChild?, graftLast, children_graft_old hn, if_neg hne] at hc
    exact hc

/-- Such a node has no place of the balloon, at any time. -/
theorem Course.balloonPlacement?_eq_none (h : Course d₀ b₀ d b) (hd : d₀.TextsUnlinked)
    (hn : n < d₀.size) (hne : n ≠ body) (htext : d₀.TextFirst n) (nudge : Nudge) :
    d.balloonPlacement? n nudge = none := by
  have hkept := h.invariant (P := fun d _ => d.TextsUnlinked ∧ d.TextFirst n ∧ n < d.size)
    (fun d b d' b' hd hc _ hP => ⟨hc.textsUnlinked hd hP.1, hc.textFirst hd hP.2.2 hne hP.2.1,
      Nat.lt_of_lt_of_le hP.2.2 (hc.steady hd).size_le⟩) ⟨hd, htext, hn⟩
  exact hkept.2.1.balloonPlacement?_eq hkept.1 nudge

/-- Looking for the balloon links no text. -/
theorem Adoption.textsUnlinked {id : String} {parts : Option BalloonParts}
    (h : d.Adoption id d' parts) (hd : d.TextsUnlinked) : d'.TextsUnlinked := by
  cases h with
  | absent | whole => exact hd
  | extended => exact hd.graft _ _ _
  | void => exact hd.lay _

end Document

theorem PageSpec.textsUnlinked_of_build (h : spec.build = .ok p) : p.document.TextsUnlinked := by
  obtain ⟨-, -, -, hadoption⟩ := PageSpec.adoption_of_build h
  exact hadoption.textsUnlinked (textsUnlinked_relayout _)

namespace Page

/-- Nothing ever happens to a page without handlers. -/
theorem after_of_unbound (h : p.bindings = ∅) (es : List Delivery) : p.after es = p := by
  have hreact : ∀ target event confirm, (p.react target event confirm).2 = p := by
    intro target event confirm
    have hnone : p.handler? target event = none := by
      rw [handler?, List.findSome?_eq_none_iff]
      intro n _
      rw [h]
      rfl
    rw [react, hnone]
  induction es with
  | nil => rfl
  | cons e es ih =>
    rw [after, List.foldl_cons, hreact]
    exact ih

/-- Whatever events were delivered to a built page: the positioned ancestor that the layout reports
for an attached node outside of the balloon is the one that the tree and the styles give it, and the
balloon has the same place next to a node as right after loading, if the first child that the node
had then, if any, was neither the element of the balloon nor inside of it. -/
theorem placement_after (h : spec.build = .ok p) (es : List Delivery) :
    (∀ n, (p.after es).document.Outside (p.after es).balloon.element? n →
      (p.after es).document.offsetParent? n = (p.after es).document.layoutParent? n) ∧
    ∀ n < p.document.size,
      (∀ c e, p.document.firstChild? n = some c → p.balloon.element? = some e →
        ¬ p.document.AtOrAbove e c) →
      ∀ nudge, (p.after es).document.balloonPlacement? n nudge =
        p.document.balloonPlacement? n nudge := by
  have hsettled := PageSpec.settled_of_build h
  have hafter : (p.after es).Settled := (after_leads es hsettled).settled
  have hcourse := course_after es hsettled
  have hunlinked := PageSpec.textsUnlinked_of_build h
  refine ⟨fun n hn => Document.Settled.offsetParent?_eq hafter hn, fun n hn hfirst nudge => ?_⟩
  cases hc : p.document.firstChild? n with
  | some c =>
    have hparent : p.document.parent? c = some n :=
      (hsettled.hosts.framed.wellFormed.mem_children n c).mp (List.mem_of_head? hc)
    have hout : p.document.Outside p.balloon.element? c :=
      ⟨PageSpec.attached_of_build h hparent, fun e he => hfirst c e hc he⟩
    exact hcourse.steady.balloonPlacement?_eq hsettled hafter hc hout nudge
  | none =>
    by_cases hbody : n = body
    · have hnil : p.document.children Document.body = [] :=
        List.head?_eq_none_iff.mp (hbody ▸ hc)
      rw [after_of_unbound (PageSpec.bindings_of_empty h hnil)]
    · have htext : p.document.TextFirst n := fun c hc' => by
        rw [hc] at hc'
        cases hc'
      rw [hcourse.balloonPlacement?_eq_none hunlinked hn hbody htext nudge,
        htext.balloonPlacement?_eq hunlinked nudge]

/-- An element beside the balloon keeps its place when it explains itself. -/
theorem placement_balloonPage : ∃ p, PageSpec.balloonPage.build = .ok p ∧
    (p.after balloonEvents).document.Outside (some 2) 13 ∧
    (p.after balloonEvents).document.offsetParent? 13 =
      (p.after balloonEvents).document.layoutParent? 13 ∧
    p.document.firstChild? 12 = some 13 ∧ p.balloon.element? = some 2 ∧
    (p.after balloonEvents).document.balloonPlacement? 12 ⟨0, 0⟩ = some ⟨23, 5⟩ := by
  have hloaded : (PageSpec.balloonPage.build.toOption.map fun p =>
      (p.document.size, p.document.inclusiveAncestors 13, p.balloon.element?,
        p.document.firstChild? 12, p.document.balloonPlacement? 12 ⟨0, 0⟩)) =
      some (14, [13, 12, 1, 0], some 2, some 13, some ⟨23, 5⟩) := by
    decide +kernel
  have hlater : (PageSpec.balloonPage.build.toOption.map fun p =>
      ((p.after balloonEvents).document.inclusiveAncestors 13,
        (p.after balloonEvents).balloon.element?)) = some ([13, 12, 1, 0], some 2) := by
    decide +kernel
  cases hp : PageSpec.balloonPage.build with
  | error e => rw [hp] at hloaded; cases hloaded
  | ok p =>
    rw [hp] at hloaded hlater
    simp only [Except.toOption, Option.map_some, Option.some.injEq, Prod.mk.injEq] at hloaded hlater
    obtain ⟨hsize, hline, helement, hfirst, hplace⟩ := hloaded
    obtain ⟨hline', helement'⟩ := hlater
    have hsettled := PageSpec.settled_of_build hp
    have hafter : (p.after balloonEvents).Settled := (after_leads balloonEvents hsettled).settled
    have hout : p.document.Outside (some 2) 13 := by
      rw [hsettled.hosts.framed.wellFormed.outside_iff, hline]
      decide
    have hout' : (p.after balloonEvents).document.Outside (some 2) 13 := by
      rw [hafter.hosts.framed.wellFormed.outside_iff, hline']
      decide
    obtain ⟨hlinks, hplaces⟩ := placement_after hp balloonEvents
    have hsame := hplaces 12 (by rw [hsize]; decide) (fun c e hc he => by
      cases hfirst.symm.trans hc
      cases helement.symm.trans he
      exact hout.2 2 rfl) ⟨0, 0⟩
    exact ⟨p, rfl, hout', hlinks 13 (helement' ▸ hout'), hfirst, helement, hsame.trans hplace⟩

end Page

end FormPage
