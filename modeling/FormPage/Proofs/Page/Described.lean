import FormPage.Proofs.Page.Built

/-!
What loading keeps of a description. The description of a page that was just built is the one from
which it was built, with its short forms written out, up to one loss: a text is loaded without the
attributes that were described with it. Main statement: where nothing is taken for a balloon this
loss is the only difference, so that nothing is lost exactly if no text is described with
attributes.
-/

namespace FormPage

open Document
open NodeSpec (flatAll normalAll shortText mem_flat mem_flatAll_cons isNormal_normalAll)

namespace NodeSpec

mutual

/-- A description with its short forms written out: the text of an element becomes a first child,
and a text that was given without characters gets the empty text. All else stays as it is. -/
def expanded : NodeSpec → NodeSpec
  | { tag, attributes, text, style, geometry, on, children } =>
    if tag = .text then
      { tag, attributes, text := some (text.getD ""), style, geometry, on
        children := expandedAll children }
    else
      { tag, attributes, style, geometry, on
        children := shortText text ++ expandedAll children }

/-- Descriptions with their short forms written out. -/
def expandedAll : List NodeSpec → List NodeSpec
  | [] => []
  | s :: rest => s.expanded :: expandedAll rest

end

/-- No text of a description is given attributes. -/
def TextsBare (ss : List NodeSpec) : Prop := ∀ t ∈ flatAll ss, t.tag = .text → t.attributes = ∅

theorem textsBare_cons {s : NodeSpec} {rest : List NodeSpec} : TextsBare (s :: rest) ↔
    ((s.tag = .text → s.attributes = ∅) ∧ TextsBare s.children) ∧ TextsBare rest := by
  simp only [TextsBare, mem_flatAll_cons, mem_flat]
  constructor
  · intro h
    exact ⟨⟨h s (.inl (.inl rfl)), fun t ht => h t (.inl (.inr ht))⟩, fun t ht => h t (.inr ht)⟩
  · rintro ⟨⟨hs, hchildren⟩, hrest⟩ t ((rfl | ht) | ht)
    · exact hs
    · exact hchildren t ht
    · exact hrest t ht

mutual

theorem normal_eq_expanded_iff : ∀ s : NodeSpec,
    s.normal = s.expanded ↔ (s.tag = .text → s.attributes = ∅) ∧ TextsBare s.children
  | { tag, attributes, text, style, geometry, on, children } => by
    have hchildren := normalAll_eq_expandedAll_iff children
    by_cases htext : tag = .text
    · subst htext
      simp only [normal, leaf, expanded, if_true, List.nil_append, mk.injEq, true_and, hchildren,
        forall_const]
      exact and_congr_left' eq_comm
    · simp [normal, leaf, expanded, htext, hchildren]

/-- The normal form only writes short forms out, exactly if no text is given attributes. -/
theorem normalAll_eq_expandedAll_iff : ∀ ss : List NodeSpec,
    normalAll ss = expandedAll ss ↔ TextsBare ss
  | [] => by simp [normalAll, expandedAll, TextsBare, flatAll]
  | s :: rest => by
    rw [normalAll, expandedAll, List.cons.injEq, normal_eq_expanded_iff s,
      normalAll_eq_expandedAll_iff rest, textsBare_cons]

end

end NodeSpec

open NodeSpec (expandedAll TextsBare normalAll_eq_expandedAll_iff)

variable {p : Page} {spec : PageSpec}

namespace Page

section Fresh

variable (hid : ∀ s ∈ flatAll spec.body, s.tag ≠ .text →
  s.attributes.get? "id" ≠ some spec.options.balloonId) (h : spec.build = .ok p)
include hid h

theorem snapshot_eq_normal : p.snapshot = { spec with body := normalAll spec.body } := by
  have hframed := (PageSpec.settled_of_build h).hosts.framed
  obtain rfl := PageSpec.eq_loaded_of_build hid h
  have hbody := snapshot_body_of_loaded hframed.wellFormed rfl (fun _ _ => rfl) (fun _ _ => rfl)
    (isNormal_normalAll spec.body)
  calc (loaded (normalAll spec.body) spec.options spec.title).snapshot
      = { title := spec.title, options := spec.options
          body := (loaded (normalAll spec.body) spec.options spec.title).snapshot.body } := rfl
    _ = { spec with body := normalAll spec.body } := by rw [hbody]

theorem snapshot_eq_expanded_iff :
    p.snapshot = { spec with body := expandedAll spec.body } ↔ TextsBare spec.body := by
  rw [snapshot_eq_normal hid h, ← normalAll_eq_expandedAll_iff]
  simp

/-- The description of a page on which no element was described with the reserved id is the normal
form of the one from which it was built; the attributes of texts are all that this may lose. -/
theorem snapshot_of_build :
    p.snapshot = { spec with body := normalAll spec.body } ∧
      (p.snapshot = { spec with body := expandedAll spec.body } ↔ TextsBare spec.body) :=
  ⟨snapshot_eq_normal hid h, snapshot_eq_expanded_iff hid h⟩

end Fresh

end Page

/-- A page with a text that is given an attribute, below an element in the short form. -/
def PageSpec.markedText : PageSpec where
  title := some "Sender"
  body := [
    { tag := .button, text := some "Save"
      attributes := (∅ : OrderedMap String String).insert "name" "Save"
      on := (∅ : OrderedMap Event Action).insert .click (.setRequest "all")
      children := [
        { tag := .text, attributes := (∅ : OrderedMap String String).insert "lang" "en" }] }]

namespace Page

/-- The short form is written out, and the attribute of the text is missing from the description of
the page. -/
theorem snapshot_markedText : ∃ p, PageSpec.markedText.build = .ok p ∧
    p.snapshot = { PageSpec.markedText with body := normalAll PageSpec.markedText.body } := by
  have hbuild : (PageSpec.markedText.build.toOption.map fun p => p.title) =
      some (some "Sender") := by decide +kernel
  obtain ⟨p, hp, -⟩ := PageSpec.exists_of_build hbuild
  exact ⟨p, hp, (snapshot_of_build (by decide) hp).1⟩

/-- No element of the page carries the reserved id, and yet its description is not the one from
which it was built with the short forms written out: the attribute of the text is lost. -/
theorem lost_markedText :
    (∀ s ∈ flatAll PageSpec.markedText.body, s.tag ≠ .text →
      s.attributes.get? "id" ≠ some PageSpec.markedText.options.balloonId) ∧
    ∃ p, PageSpec.markedText.build = .ok p ∧
      p.snapshot ≠ { PageSpec.markedText with body := expandedAll PageSpec.markedText.body } := by
  have hid : ∀ s ∈ flatAll PageSpec.markedText.body, s.tag ≠ .text →
      s.attributes.get? "id" ≠ some PageSpec.markedText.options.balloonId := by decide
  have hbuild : (PageSpec.markedText.build.toOption.map fun p => p.title) =
      some (some "Sender") := by decide +kernel
  obtain ⟨p, hp, -⟩ := PageSpec.exists_of_build hbuild
  refine ⟨hid, p, hp, ?_⟩
  intro heq
  have hbare := (snapshot_eq_expanded_iff hid hp).mp heq
  have htext := hbare
    { tag := .text, attributes := (∅ : OrderedMap String String).insert "lang" "en" }
    (by simp [PageSpec.markedText, flatAll, NodeSpec.flat]) rfl
  revert htext
  decide

end Page

end FormPage
