import FormPage.Proofs.Balloon.Marked

/-!
A balloon of the page's own. On a page whose descriptions give the reserved id to no element, the
id belongs to the balloon that the page builds and to nothing else, the balloon hangs below the
body, and no node with handlers comes to lie in it. These are kept by every step.
-/

namespace FormPage.Document

open Balloon Relation
open NodeSpec (flatAll)

variable {d d' d₀ : Document} {b b₀ : Balloon} {n : NodeId} {bound : NodeId → Prop}

/-- No node but the element of the balloon carries the reserved id, the element hangs below the
body, and the bound nodes, which are old ones, lie outside of it. -/
structure Owns (bound : NodeId → Prop) (d : Document) (b : Balloon) : Prop where
  marked : Marked (fun _ => False) d b
  below : ∀ e, b.element? = some e → d.parent? e = some body
  apart : ∀ n, bound n → n < d.size ∧ ∀ e, b.element? = some e → ¬ d.AtOrAbove e n

/-- The reserved id leads to the balloon. -/
theorem Owns.elementById? (h : Owns bound d b) (hs : d.Settled b) :
    d.elementById? b.id = b.element? := by
  rcases hs.hosts.finds with hf | ⟨e, t, he, -⟩
  · exact hf
  · have hid := List.find?_some he
    rw [he, (h.marked.only e (of_decide_eq_true hid)).resolve_left id]

theorem Owns.of_extends (h : Owns bound d b) (hd : d.Hosts b) (he : Extends b d d') :
    Owns bound d' b where
  marked := h.marked.of_extends hd he
  below e hp := by
    have hbelow := h.below e hp
    rw [he.parent e (lt_size_of_parent hbelow), hbelow]
  apart n hn := by
    obtain ⟨hlt, hnot⟩ := h.apart n hn
    refine ⟨Nat.lt_of_lt_of_le hlt he.size, fun e hp hr => hnot e hp ?_⟩
    exact (sameAbove_old hd.framed.wellFormed he.parent).symm.atOrAbove hlt hr

theorem Owns.cleared (h : Owns bound d b) (hs : d.Settled b) {parts : BalloonParts}
    (hparts : b.parts = some parts) : Owns bound (Balloon.cleared d parts.textRegion) b := by
  have hwf := hs.hosts.framed.wellFormed
  have hcarries := hs.hosts.carries parts hparts
  constructor
  case marked => exact h.marked.cleared hwf _
  case below =>
    intro e he
    have hbelow := h.below e he
    rw [parent?_cleared hwf, hbelow, if_neg]
    rintro hr
    exact hcarries.region_ne_body hs.hosts.framed (Option.some.inj hr).symm
  case apart =>
    intro n hn
    obtain ⟨hlt, hnot⟩ := h.apart n hn
    refine ⟨by rwa [size_cleared hwf], fun e he hr => hnot e he ?_⟩
    rcases reflTransGen_iff_eq_or_transGen.mp hr with rfl | hr
    · exact .refl
    · exact (above_of_cleared hwf hr).to_reflTransGen

theorem Owns.build (h : Owns bound d b) (hs : d.Settled b) (hparts : b.parts = none) :
    Owns bound (d.graftLast body [elementSpec b.id b.cssClass])
      { b with parts := some ⟨d.size, d.size + 2⟩ } := by
  have hwf := hs.hosts.framed.wellFormed
  have hsame : SameAbove (· < d.size) d (d.graftLast body [elementSpec b.id b.cssClass]) :=
    sameAbove_old hwf fun _ hm => parent?_graft_old hm
  constructor
  case marked => exact h.marked.build hparts
  case below =>
    intro e he
    cases he
    exact parent?_graft_first d body _ _
  case apart =>
    intro n hn
    obtain ⟨hlt, -⟩ := h.apart n hn
    refine ⟨Nat.lt_of_lt_of_le hlt (by rw [graftLast, size_graft]; exact Nat.le_add_right _ _),
      fun e he hr => ?_⟩
    cases he
    have hlt' := hwf.acyclic.lt_of_reaches hlt (hsame.symm.atOrAbove hlt hr)
    exact absurd hlt' (Nat.lt_irrefl _)

/-- Wherever steps lead to, the balloon is the page's own. -/
theorem Leads.owns (h : Leads d₀ b₀ d b) (ho : Owns bound d₀ b₀) : Owns bound d b := by
  induction h with
  | refl _ => exact ho
  | extend h he _ ih => exact ih.of_extends h.settled.hosts he
  | clear h hparts ih => exact ih.cleared h.settled hparts
  | build h hparts ih => exact ih.build h.settled hparts

end FormPage.Document
