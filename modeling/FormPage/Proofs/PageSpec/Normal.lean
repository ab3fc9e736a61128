import FormPage.Proofs.Document.Graft

/-!
Normal descriptions. A description in normal form gives every text as a node of its own: the short
form of an element becomes a leading child, a text without characters is written out. What is
loaded is the normal form, and what is saved is in normal form already.
-/

namespace FormPage.NodeSpec

/-- The child that the short form of a text stands for. -/
def shortText : Option String → List NodeSpec
  | none => []
  | some text => [{ tag := .text, text := some text }]

/-- The normal form of a description, without the children that it lists. -/
def leaf (s : NodeSpec) : NodeSpec :=
  if s.tag = .text then { s with attributes := ∅, text := some (s.text.getD ""), children := [] }
  else { s with text := none, children := shortText s.text }

mutual

/-- The normal form of a description. -/
def normal : NodeSpec → NodeSpec
  | { tag, attributes, text, style, geometry, on, children } =>
    let top := leaf { tag, attributes, text, style, geometry, on, children }
    { top with children := top.children ++ normalAll children }

/-- The normal forms of descriptions. -/
def normalAll : List NodeSpec → List NodeSpec
  | [] => []
  | s :: rest => s.normal :: normalAll rest

end

theorem normal_eq (s : NodeSpec) :
    s.normal = { s.leaf with children := s.leaf.children ++ normalAll s.children } := by
  cases s; rfl

theorem normal_of_childless {s : NodeSpec} (h : s.children = []) : s.normal = s.leaf := by
  rw [normal_eq, h, normalAll, List.append_nil]
  cases s.leaf; rfl

/-- A description in normal form: a text has its characters and no attributes, an element gives no
text by itself. -/
def IsNormal (s : NodeSpec) : Prop :=
  if s.tag = .text then s.attributes = ∅ ∧ s.text.isSome else s.text = none

/-- A node that can be built: an input has no text, and what is void has no children. -/
structure Holds (s : NodeSpec) : Prop where
  text : s.tag = .input → s.text = none
  children : s.tag.isVoid = true → s.children = []

theorem mem_flat {s t : NodeSpec} : t ∈ s.flat ↔ t = s ∨ t ∈ flatAll s.children := by
  rw [flat_eq, List.mem_cons]

theorem mem_flatAll_cons {s t : NodeSpec} {rest : List NodeSpec} :
    t ∈ flatAll (s :: rest) ↔ t ∈ s.flat ∨ t ∈ flatAll rest := by
  rw [flatAll, List.mem_append]

theorem isNormal_leaf (s : NodeSpec) : ∀ t ∈ s.leaf.flat, t.IsNormal := by
  intro t ht
  rw [leaf] at ht
  split at ht
  · rename_i htext
    rw [mem_flat] at ht
    rcases ht with rfl | ht
    · rw [IsNormal, if_pos htext]; exact ⟨rfl, rfl⟩
    · cases ht
  · rename_i htext
    rw [mem_flat] at ht
    rcases ht with rfl | ht
    · rw [IsNormal, if_neg htext]
    · cases hs : s.text with
      | none => simp [hs, shortText, flatAll] at ht
      | some text =>
        simp only [hs, shortText, flatAll, flat, List.append_nil, List.mem_cons, List.not_mem_nil,
          or_false] at ht
        subst ht
        exact ⟨rfl, rfl⟩

mutual

theorem isNormal_normal : ∀ (s : NodeSpec), ∀ t ∈ s.normal.flat, t.IsNormal
  | { tag, attributes, text, style, geometry, on, children }, t, ht => by
    rw [normal, mem_flat] at ht
    have hleaf := isNormal_leaf { tag, attributes, text, style, geometry, on, children }
    have htop := hleaf _ (mem_flat.mpr (.inl rfl))
    rcases ht with rfl | ht
    · exact htop
    · rw [flatAll_append, List.mem_append] at ht
      rcases ht with ht | ht
      · exact hleaf t (mem_flat.mpr (.inr ht))
      · exact isNormal_normalAll children t ht

/-- Every node of a normal form is in normal form. -/
theorem isNormal_normalAll : ∀ (ss : List NodeSpec), ∀ t ∈ flatAll (normalAll ss), t.IsNormal
  | s :: rest, t, ht => by
    rw [normalAll, mem_flatAll_cons] at ht
    rcases ht with ht | ht
    · exact isNormal_normal s t ht
    · exact isNormal_normalAll rest t ht

end

/-! ### Described elements -/

/-- The kind and the attributes of a described element; a text has neither. -/
def element? (s : NodeSpec) : Option (Tag × OrderedMap String String) :=
  if s.tag = .text then none else some (s.tag, s.attributes)

/-- The elements that are described, in document order. -/
def elements (ss : List NodeSpec) : List (Tag × OrderedMap String String) :=
  (flatAll ss).filterMap element?

theorem elements_append (ss ts : List NodeSpec) :
    elements (ss ++ ts) = elements ss ++ elements ts := by
  rw [elements, flatAll_append, List.filterMap_append]; rfl

theorem elements_cons (s : NodeSpec) (rest : List NodeSpec) :
    elements (s :: rest) = s.element?.toList ++ elements s.children ++ elements rest := by
  rw [elements, flatAll, flat_eq, List.filterMap_append, List.filterMap_cons]
  cases s.element? <;> rfl

theorem element?_leaf (s : NodeSpec) : s.leaf.element? = s.element? := by
  rw [leaf]
  split
  · rename_i htext
    rw [element?, element?, if_pos htext, if_pos htext]
  · rfl

theorem elements_leaf (s : NodeSpec) : elements s.leaf.children = [] := by
  rw [leaf]
  split
  · rfl
  · cases s.text <;> rfl

mutual

theorem elements_normal : ∀ (s : NodeSpec),
    s.normal.element?.toList ++ elements s.normal.children =
      s.element?.toList ++ elements s.children
  | { tag, attributes, text, style, geometry, on, children } => by
    have hleaf := element?_leaf { tag, attributes, text, style, geometry, on, children }
    rw [normal, elements_append, elements_leaf, List.nil_append, elements_normalAll children,
      ← hleaf]
    rfl

/-- The normal form describes the same elements. -/
theorem elements_normalAll : ∀ (ss : List NodeSpec), elements (normalAll ss) = elements ss
  | [] => rfl
  | s :: rest => by
    rw [normalAll, elements_cons, elements_cons, elements_normal s, elements_normalAll rest]

end

theorem mem_elements {s : NodeSpec} {ss : List NodeSpec} (hs : s ∈ flatAll ss)
    (htext : s.tag ≠ .text) : (s.tag, s.attributes) ∈ elements ss :=
  List.mem_filterMap.mpr ⟨s, hs, if_neg htext⟩

theorem exists_of_mem_elements {e : Tag × OrderedMap String String} {ss : List NodeSpec}
    (he : e ∈ elements ss) : ∃ s ∈ flatAll ss, s.tag ≠ .text ∧ e = (s.tag, s.attributes) := by
  obtain ⟨s, hs, he⟩ := List.mem_filterMap.mp he
  rw [element?] at he
  split at he
  · cases he
  · rename_i htext
    exact ⟨s, hs, htext, (Option.some.inj he).symm⟩

mutual

theorem exists_described_below {s : NodeSpec} (htext : s.tag ≠ .text) : ∀ {u : NodeSpec},
    s ∈ u.normal.flat → ∃ v ∈ u.flat, v.tag ≠ .text ∧ s.tag = v.tag ∧
      s.attributes = v.attributes ∧ s.style = v.style
  | { tag, attributes, text, style, geometry, on, children }, hs => by
    rw [normal, mem_flat] at hs
    rcases hs with rfl | hs
    · by_cases ht : tag = .text
      · exact absurd (by simp [leaf, ht]) htext
      · exact ⟨_, mem_flat.mpr (.inl rfl), ht, by simp [leaf, ht], by simp [leaf, ht],
          by simp [leaf, ht]⟩
    · rw [flatAll_append, List.mem_append] at hs
      rcases hs with hs | hs
      · -- what the short form of a text stands for is no element
        refine absurd ?_ htext
        by_cases ht : tag = .text
        · simp [leaf, ht, flatAll] at hs
        · cases text with
          | none => simp [leaf, ht, shortText, flatAll] at hs
          | some cs =>
            simp only [leaf, ht, if_false, shortText, flatAll, flat, List.append_nil,
              List.mem_singleton] at hs
            rw [hs]
      · obtain ⟨v, hv, hsame⟩ := exists_described htext hs
        exact ⟨v, mem_flat.mpr (.inr hv), hsame⟩

/-- Every element of the normal form is described, with its attributes and its style. -/
theorem exists_described {s : NodeSpec} (htext : s.tag ≠ .text) : ∀ {ss : List NodeSpec},
    s ∈ flatAll (normalAll ss) → ∃ u ∈ flatAll ss, u.tag ≠ .text ∧ s.tag = u.tag ∧
      s.attributes = u.attributes ∧ s.style = u.style
  | u :: rest, hs => by
    rw [normalAll, mem_flatAll_cons] at hs
    rcases hs with hs | hs
    · obtain ⟨v, hv, hsame⟩ := exists_described_below htext hs
      exact ⟨v, mem_flatAll_cons.mpr (.inl hv), hsame⟩
    · obtain ⟨v, hv, hsame⟩ := exists_described htext hs
      exact ⟨v, mem_flatAll_cons.mpr (.inr hv), hsame⟩

end

theorem leaf_of_isNormal {s : NodeSpec} (h : s.IsNormal) : s.leaf = { s with children := [] } := by
  obtain ⟨tag, attributes, text, style, geometry, on, children⟩ := s
  rw [IsNormal] at h
  rw [leaf]
  split at h
  · rename_i htext
    obtain ⟨hattributes, htext'⟩ := h
    obtain ⟨cs, hcs⟩ := Option.isSome_iff_exists.mp htext'
    simp only at htext hattributes hcs
    simp [htext, hattributes, hcs]
  · rename_i htext
    simp only at htext h
    simp [htext, h, shortText]

mutual

theorem normal_of_isNormal : ∀ (s : NodeSpec), (∀ t ∈ s.flat, t.IsNormal) → s.normal = s
  | { tag, attributes, text, style, geometry, on, children }, h => by
    rw [normal, leaf_of_isNormal (h _ (mem_flat.mpr (.inl rfl)))]
    simp only [List.nil_append,
      normalAll_of_isNormal children fun t ht => h t (mem_flat.mpr (.inr ht))]

/-- A normal form is its own normal form. -/
theorem normalAll_of_isNormal : ∀ (ss : List NodeSpec), (∀ t ∈ flatAll ss, t.IsNormal) →
    normalAll ss = ss
  | [], _ => rfl
  | s :: rest, h => by
    rw [normalAll, normal_of_isNormal s fun t ht => h t (mem_flatAll_cons.mpr (.inl ht)),
      normalAll_of_isNormal rest fun t ht => h t (mem_flatAll_cons.mpr (.inr ht))]

end

end FormPage.NodeSpec
