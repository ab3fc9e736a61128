import FormPage.Proofs.Page.SingleBalloon

/-!
What a session does to styles. Whatever events are delivered to a page, no node is given an
attribute `style` and none loses it, and of the nodes that the page was built with only the element
of its balloon changes its style. So a node that comes to have both was described with an attribute
`style`, and with a style or the reserved id besides (`described_of_styledTwice`).
-/

namespace FormPage

open Document Balloon
open NodeSpec (flatAll normalAll)

variable {d d' d₀ : Document} {b b' b₀ : Balloon} {p : Page} {spec : PageSpec} {n : NodeId}

/-- The nodes of a built balloon carry no attribute but an id and classes. -/
theorem Balloon.get?_elementSpec {id cssClass k : String} (hk : k ∉ ["id", "class"])
    {s : NodeSpec} (hs : s ∈ flatAll [elementSpec id cssClass]) : s.attributes.get? k = none := by
  simp only [List.mem_cons, List.not_mem_nil, or_false, not_or] at hk
  rw [elementSpec_flat] at hs
  simp only [List.mem_cons, List.not_mem_nil, or_false] at hs
  rcases hs with rfl | rfl | rfl | rfl
  · rw [elementSpec, OrderedMap.get?_insert, if_neg hk.2, OrderedMap.get?_insert, if_neg hk.1]
    rfl
  · rw [bandSpec, OrderedMap.get?_insert, if_neg hk.2]
    rfl
  · rw [regionSpec, OrderedMap.get?_insert, if_neg hk.2]
    rfl
  · rw [bandSpec, OrderedMap.get?_insert, if_neg hk.2]
    rfl

namespace Document

/-- A node that has both an attribute `style` and a style that is not the default one. -/
def StyledTwice (d : Document) (n : NodeId) : Prop :=
  d.attribute? n "style" ≠ none ∧ ∃ s, d.style? n = some s ∧ s.isDefault = false

/-- From a document and its balloon to later ones no attribute `style` comes or goes, and of the
older nodes only the element of the balloon changes its style. -/
structure StylesKept (d : Document) (b : Balloon) (d' : Document) (b' : Balloon) : Prop where
  size_le : d.size ≤ d'.size
  named : ∀ n, d'.attribute? n "style" = d.attribute? n "style"
  style : ∀ n < d.size, b.element? ≠ some n → d'.style? n = d.style? n
  element : ∀ n, b'.element? = some n → b.element? = some n ∨ d.size ≤ n

theorem attribute?_of_size_le (h : d.size ≤ n) (k : String) : d.attribute? n k = none := by
  rw [attribute?, node?_eq_none_iff.mpr h, Option.bind_none]

namespace StylesKept

theorem refl (d : Document) (b : Balloon) : StylesKept d b d b where
  size_le := Nat.le_refl _
  named _ := rfl
  style _ _ _ := rfl
  element _ hn := .inl hn

theorem trans (h : StylesKept d₀ b₀ d b) (h' : StylesKept d b d' b') :
    StylesKept d₀ b₀ d' b' where
  size_le := Nat.le_trans h.size_le h'.size_le
  named n := (h'.named n).trans (h.named n)
  style n hn hne := by
    have hne' : b.element? ≠ some n := by
      intro hb
      rcases h.element n hb with hb | hle
      · exact hne hb
      · exact Nat.not_lt_of_le hle hn
    rw [h'.style n (Nat.lt_of_lt_of_le hn h.size_le) hne', h.style n hn hne]
  element n hn := by
    rcases h'.element n hn with hb | hle
    · exact h.element n hb
    · exact .inr (Nat.le_trans h.size_le hle)

/-- Nodes that are added without an attribute `style` change nothing. -/
theorem of_grown (hsize : d.size ≤ d'.size) (hold : ∀ n < d.size, d'.face? n = d.face? n)
    (hnew : ∀ n, d.size ≤ n → d'.attribute? n "style" = none)
    (helement : ∀ n, b'.element? = some n → b.element? = some n ∨ d.size ≤ n) :
    StylesKept d b d' b' where
  size_le := hsize
  named n := by
    rcases Nat.lt_or_ge n d.size with hn | hn
    · rw [attribute?_eq_face, hold n hn, ← attribute?_eq_face]
    · rw [hnew n hn, attribute?_of_size_le hn]
  style n hn _ := by rw [style?_eq_face, hold n hn, ← style?_eq_face]
  element := helement

theorem graft {q : NodeId} {place : List NodeId → List NodeId} {ss : List NodeSpec}
    (hplain : ∀ t ∈ flatAll ss, t.attributes.get? "style" = none)
    (helement : ∀ n, b'.element? = some n → b.element? = some n ∨ d.size ≤ n) :
    StylesKept d b (d.graft q place ss) b' :=
  of_grown (by rw [size_graft]; exact Nat.le_add_right _ _) (fun _ hn => face?_graft_old hn)
    (fun _ hn => attribute?_graft_new hn hplain) helement

/-- A document in which every node shows what it showed. -/
theorem of_face (hsize : d'.size = d.size) (hface : ∀ n, d'.face? n = d.face? n) :
    StylesKept d b d' b where
  size_le := Nat.le_of_eq hsize.symm
  named n := by rw [attribute?_eq_face, hface, ← attribute?_eq_face]
  style n _ _ := by rw [style?_eq_face, hface, ← style?_eq_face]
  element _ hn := .inl hn

end StylesKept

/-- No change gives or takes an attribute `style`, and only the balloon's element is restyled. -/
theorem Changes.stylesKept (hd : d.Settled b) (hc : Changes d b d' b') :
    StylesKept d b d' b' := by
  have hwf := hd.hosts.framed.wellFormed
  cases hc with
  | lay s hplain =>
    have hplain' : ∀ t ∈ s.flat, t.attributes.get? "style" = none := fun t ht =>
      hplain t (List.mem_append_left [] ht)
    refine .of_grown ?_ (fun _ hn => face?_lay_old hn)
      (fun _ hn => attribute?_lay_new hn hplain') fun _ hn => .inl hn
    rw [size_lay]
    exact Nat.le_add_right _ _
  | @row anchor container s _ _ _ _ hplain =>
    have hgraft : StylesKept d b (d.graft container (insertAhead anchor d.size) [s]) b :=
      .graft hplain fun _ hn => .inl hn
    exact hgraft.trans (.of_face (size_relayout _) (face?_relayout _))
  | write n value =>
    exact {
      size_le := Nat.le_of_eq (size_update ..).symm
      named := fun _ => attribute?_writeValue (.inr (by decide))
      style := fun _ _ _ => style?_update fun _ => rfl
      element := fun _ hn => .inl hn }
  | @restyle n hn f =>
    exact {
      size_le := Nat.le_of_eq (size_update ..).symm
      named := fun m => bind_node?_update (fun x => x.attributes.get? "style") fun _ => rfl
      style := fun m _ hne => by
        have hnm : n ≠ m := by
          rintro rfl
          exact hne hn
        rw [updateStyle, style?, node?_update, if_neg hnm, style?]
      element := fun _ hn => .inl hn }
  | @clear parts _ => exact .of_face (size_cleared hwf _) (face?_cleared hwf _)
  | fill _ text => exact .graft (fun _ hs => get?_textSpec hs "style") fun _ hn => .inl hn
  | build _ =>
    refine .graft (fun t ht => get?_elementSpec (by decide) ht) fun n hn => .inr ?_
    cases hn
    exact Nat.le_refl _

theorem Course.stylesKept (h : Course d b d' b') : StylesKept d b d' b' :=
  h.invariant (fun _ _ _ _ hd hc _ hk => hk.trans (hc.stylesKept hd)) (.refl d b)

/-- What comes to be styled twice was so before, or belongs to the balloon. -/
theorem StylesKept.styledTwice (h : StylesKept d b d' b') (hn : d'.StyledTwice n) :
    d.StyledTwice n ∨ (d.attribute? n "style" ≠ none ∧ b.element? = some n) := by
  obtain ⟨hnamed, s, hs, hset⟩ := hn
  rw [h.named] at hnamed
  have hlt : n < d.size := by
    by_contra hge
    exact hnamed (attribute?_of_size_le (Nat.le_of_not_lt hge) "style")
  by_cases he : b.element? = some n
  · exact .inr ⟨hnamed, he⟩
  · exact .inl ⟨hnamed, s, (h.style n hlt he) ▸ hs, hset⟩

end Document

/-- After any events a node has both an attribute `style` and a style only if it was described with
the attribute, and with a style or the reserved id. -/
theorem Page.described_of_styledTwice (h : spec.build = .ok p) (es : List Delivery)
    (hn : (p.after es).document.StyledTwice n) :
    ∃ s ∈ flatAll spec.body, s.tag ≠ .text ∧ s.attributes.get? "style" ≠ none ∧
      (s.style.isDefault = false ∨ s.attributes.get? "id" = some spec.options.balloonId) := by
  obtain ⟨hholds, -⟩ := PageSpec.of_build_ok h
  obtain ⟨-, -, -, hadoption⟩ := PageSpec.adoption_of_build h
  have hkept := (course_after es (PageSpec.settled_of_build h)).stylesKept
  have hcases := hkept.styledTwice hn
  -- the node was loaded, from an element with the attribute
  have hnamed : p.document.attribute? n "style" ≠ none := by
    rcases hcases with htwice | ⟨hnamed, -⟩
    · exact htwice.1
    · exact hnamed
  rw [hadoption.attribute?_eq (by decide)] at hnamed
  obtain ⟨value, hvalue⟩ := Option.ne_none_iff_exists'.mp hnamed
  obtain ⟨i, s, rfl, hs, htext, hstyle⟩ := (attribute?_loaded_iff hholds n).mp hvalue
  obtain ⟨u, hu, hutext, -, hattributes, hsame⟩ :=
    NodeSpec.exists_described htext (List.mem_of_getElem? hs)
  refine ⟨u, hu, hutext, by rw [← hattributes, hstyle]; exact nofun, ?_⟩
  rcases hcases with ⟨-, t, ht, hset⟩ | ⟨-, helement⟩
  · have hlt : 2 + i < (Document.loaded (normalAll spec.body)).size := by
      obtain ⟨hi, -⟩ := List.getElem?_eq_some_iff.mp hs
      rw [size_loaded]
      exact Nat.add_lt_add_left hi 2
    rw [style?_eq_face, (hadoption.old hlt).2.1, face?_loaded_new, hs] at ht
    cases ht
    exact .inl (hsame ▸ hset)
  · obtain ⟨parts, hparts, he⟩ := Option.map_eq_some_iff.mp helement
    have hid := hadoption.found hparts
    rw [he, attribute?_loaded_iff hholds] at hid
    obtain ⟨j, t, hj, ht, -, hid⟩ := hid
    obtain rfl := Nat.add_left_cancel hj
    cases hs.symm.trans ht
    exact .inr (hattributes ▸ hid)

end FormPage
