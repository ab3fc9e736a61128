import FormPage.Proofs.Document.Nearest
import FormPage.Proofs.Page.Built

/-!
The positioned ancestors of a page that was just built. The links are set before the page looks for
its balloon, so that all described nodes have the link of the rule (`positioned_of_build`), and the
one node that may come later, the region that is added to a balloon without one, has none. If the
balloon is shown, the rule gives it one.
-/

namespace FormPage

open Document Balloon Relation
open NodeSpec (flatAll normalAll)

variable {d d' : Document} {p : Page} {spec : PageSpec} {n a : NodeId}

namespace Document

theorem Framed.root_not_hidden (h : d.Framed) :
    ∀ s, d.style? root = some s → s.isHidden = false := by
  intro s hs
  rw [style?_eq_face, h.root_face] at hs
  cases hs
  rfl

/-- Every attached node but the root is the body or lies below it. -/
theorem Framed.body_atOrAbove (h : d.Framed) (hn : d.AtOrAbove root n) (hne : n ≠ root) :
    d.AtOrAbove body n := by
  rcases hn.cases_tail with hn | ⟨q, hq, hroot⟩
  · exact absurd hn.symm hne
  · have hmem := (h.wellFormed.mem_children root q).mpr hroot
    rw [h.children_root, List.mem_singleton] at hmem
    exact hmem ▸ hq

/-- Looking for the balloon leaves the positioned ancestors of the rule as they were. -/
theorem Adoption.layoutParent?_eq {id : String} {parts : Option BalloonParts}
    (h : d.Adoption id d' parts) (hd : d.Framed) (hd' : d'.Framed) (hn : d.AtOrAbove root n) :
    d'.layoutParent? n = d.layoutParent? n := by
  have hout : d.Outside none n := ⟨hn, nofun⟩
  refine hd'.layoutParent?_of_same hd (fun _ he => by cases he) (fun m hm => ?_) hout
  obtain ⟨hparent, hface, -⟩ := h.old (hd.lt_size hm.1)
  exact ⟨hparent, by rw [look?_eq_face, look?_eq_face, hface]⟩

/-- A new node that is shown is the region of the balloon, and the rule gives it an ancestor. -/
theorem Adoption.region_of_shown {id : String} {parts : Option BalloonParts}
    (h : d.Adoption id d' parts) (hd : d.Framed) (hd' : d'.Framed) (hn : d.size ≤ n)
    (hshown : d'.Shown n) :
    (∃ e, parts = some ⟨e, n⟩) ∧ ∃ a, d'.PositionedAncestor n a := by
  have hroot : n ≠ root := fun he => Nat.not_lt_of_le (he ▸ hn) hd.root_lt
  have hbody : n ≠ body := fun he => Nat.not_lt_of_le (he ▸ hn) hd.body_lt
  obtain ⟨q, hq⟩ : ∃ q, d'.parent? n = some q := by
    rcases hshown.attached.cases_head with he | ⟨q, hq, -⟩
    · exact absurd he hroot
    · exact ⟨q, hq⟩
  obtain ⟨-, hface, hparts⟩ := (h.new hn).2 q hq
  have htag : d'.tag? n ≠ some .text := by
    rw [tag?_eq_face, hface]
    decide
  -- being attached, it lies below the body, which measures every node
  have habove : d'.Above body n :=
    (reflTransGen_iff_eq_or_transGen.mp
      (hd'.body_atOrAbove hshown.attached hroot)).resolve_left (Ne.symm hbody)
  exact ⟨hparts, hd'.wellFormed.exists_positionedAncestor htag ⟨hroot, hbody⟩ hshown habove
    (.inr (.inl hd'.tag?_body))⟩

end Document

namespace Page

/-- In a page that was just built, the positioned ancestor of every described node is the one of the
rule. A node beyond these has none, and if it is shown, it is the region of the balloon; the rule
thus holds for all nodes exactly if no such node is shown. -/
theorem positioned_of_build (h : spec.build = .ok p) :
    (∀ n < 2 + (flatAll (normalAll spec.body)).length, ∀ a,
      p.document.offsetParent? n = some a ↔ p.document.PositionedAncestor n a) ∧
    (∀ n, 2 + (flatAll (normalAll spec.body)).length ≤ n → p.document.offsetParent? n = none ∧
      (p.document.Shown n → p.balloon.textRegion? = some n)) ∧
    ((∀ n a, p.document.offsetParent? n = some a ↔ p.document.PositionedAncestor n a) ↔
      ∀ n, 2 + (flatAll (normalAll spec.body)).length ≤ n → ¬ p.document.Shown n) := by
  obtain ⟨hd, -, -, hadoption⟩ := PageSpec.adoption_of_build h
  have hd' : p.document.Framed := (PageSpec.settled_of_build h).hosts.framed
  have hlinked := linked_loaded (PageSpec.of_build_ok h).1 none
  have hattached : ∀ n < (Document.loaded (normalAll spec.body)).size,
      (Document.loaded (normalAll spec.body)).AtOrAbove root n := fun n => attached_loaded hd
  have hreports : ∀ n, p.document.offsetParent? n = p.document.offsetLink? n := fun n => by
    rw [offsetParent?, hd'.reports, if_pos rfl]
  rw [← size_loaded]
  generalize Document.loaded (normalAll spec.body) = d at hd hadoption hlinked hattached
  have hold : ∀ n < d.size, ∀ a,
      p.document.offsetParent? n = some a ↔ p.document.PositionedAncestor n a := by
    intro n hn a
    rw [hreports, (hadoption.old hn).2.2, hlinked n ⟨hattached n hn, nofun⟩,
      ← hadoption.layoutParent?_eq hd hd' (hattached n hn),
      hd'.wellFormed.layoutParent?_eq_some hd'.root_not_hidden]
  have hnew : ∀ n, d.size ≤ n → p.document.offsetParent? n = none := fun n hn => by
    rw [hreports, (hadoption.new hn).1]
  refine ⟨hold, fun n hn => ⟨hnew n hn, fun hshown => ?_⟩, ?_, ?_⟩
  · obtain ⟨⟨e, hparts⟩, -⟩ := hadoption.region_of_shown hd hd' hn hshown
    rw [Balloon.textRegion?, hparts]
    rfl
  · intro hall n hn hshown
    obtain ⟨-, a, ha⟩ := hadoption.region_of_shown hd hd' hn hshown
    have hlink := (hall n a).mpr ha
    rw [hnew n hn] at hlink
    cases hlink
  · intro hhidden n a
    by_cases hn : n < d.size
    · exact hold n hn a
    · have hge := Nat.le_of_not_lt hn
      rw [hnew n hge]
      exact ⟨nofun, fun ha => absurd ha.shown (hhidden n hge)⟩

end Page

/-- A page whose balloon is an element without a region. -/
def PageSpec.bareBalloon : PageSpec where
  body := [{
    tag := .span, attributes := (∅ : OrderedMap String String).insert "id" "balloon_help" }]

namespace Page

/-- The element of a bare balloon is linked to the body. -/
theorem positioned_bareBalloon : ∃ p, PageSpec.bareBalloon.build = .ok p ∧
    p.document.PositionedAncestor 2 body := by
  have hlink : (PageSpec.bareBalloon.build.toOption.map fun p => p.document.offsetParent? 2) =
      some (some body) := by
    decide +kernel
  obtain ⟨p, hp, hlink⟩ := PageSpec.exists_of_build hlink
  exact ⟨p, hp, ((positioned_of_build hp).1 2 (by decide) body).mp hlink⟩

/-- The region that is added to a bare balloon is not linked, although the body measures it. -/
theorem unlinked_bareBalloon : ∃ p, PageSpec.bareBalloon.build = .ok p ∧
    p.document.offsetParent? 3 = none ∧ p.document.PositionedAncestor 3 body := by
  have hlinks : (PageSpec.bareBalloon.build.toOption.map fun p =>
      (p.document.offsetParent? 3, p.document.layoutParent? 3)) = some (none, some body) := by
    decide +kernel
  obtain ⟨p, hp, hlinks⟩ := PageSpec.exists_of_build hlinks
  obtain ⟨hnone, hrule⟩ := Prod.mk.inj hlinks
  have hframed := (PageSpec.settled_of_build hp).hosts.framed
  exact ⟨p, hp, hnone,
    (hframed.wellFormed.layoutParent?_eq_some hframed.root_not_hidden).mp hrule⟩

end Page

end FormPage
