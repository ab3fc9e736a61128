import FormPage.Proofs.Document.WellFormed

/-!
The positioned ancestor that the layout gives a node. The layout searches a list of ancestors; the
rule that it follows is said here by the tree and the styles alone: text, the root, the body and
what is not rendered have none (`LaidOut`), and any other node has the nearest of the ancestors that
measure it (`NearestMeasuring`). Where the root is not hidden, what is rendered is what is shown,
and the rule is that of `PositionedAncestor`. The links that follow the rule lead upwards, so that
they close no circle.
-/

namespace FormPage.Document

open Relation

variable {d : Document} {n m a : NodeId}

/-! ### The rule -/

/-- A node hangs below the root, and neither it nor anything above it is hidden. -/
structure Shown (d : Document) (n : NodeId) : Prop where
  attached : d.AtOrAbove root n
  visible : ∀ m s, d.AtOrAbove m n → d.style? m = some s → s.isHidden = false

/-- A node hangs below the root, and nothing from it up to the root is hidden, the root apart. -/
structure Rendered (d : Document) (n : NodeId) : Prop where
  attached : d.AtOrAbove root n
  visible : ∀ m s, d.AtOrAbove m n → m ≠ root → d.style? m = some s → s.isHidden = false

/-- A node is positioned. -/
def Positioned (d : Document) (n : NodeId) : Prop :=
  ∃ s, d.style? n = some s ∧ s.position.isPositioned = true

/-- An ancestor measures the box of a node: it is positioned, or a body, or a table box around a
node that is not positioned itself. -/
def Measures (d : Document) (n a : NodeId) : Prop :=
  d.Positioned a ∨ d.tag? a = some .body ∨
    ¬ d.Positioned n ∧ ∃ t, d.tag? a = some t ∧ t.isTableBox = true

/-- What the layout links: rendered elements, the root and the body apart. -/
structure LaidOut (d : Document) (n : NodeId) : Prop where
  element : d.tag? n ≠ some .text
  inner : n ≠ root ∧ n ≠ body
  rendered : d.Rendered n

/-- Of the ancestors that measure a node, the nearest. -/
structure NearestMeasuring (d : Document) (n a : NodeId) : Prop where
  above : d.Above a n
  measures : d.Measures n a
  nearest : ∀ m, d.Above m n → d.Measures n m → d.AtOrAbove m a

/-- The rule of the layout: a shown element, the root and the body apart, is measured by the nearest
of the ancestors that measure it. -/
structure PositionedAncestor (d : Document) (n a : NodeId) : Prop where
  element : d.tag? n ≠ some .text
  inner : n ≠ root ∧ n ≠ body
  shown : d.Shown n
  above : d.Above a n
  measures : d.Measures n a
  nearest : ∀ m, d.Above m n → d.Measures n m → d.AtOrAbove m a

theorem measures_iff {x : Node} (hx : d.node? n = some x) :
    d.measures (!x.style.position.isPositioned) a = true ↔ d.Measures n a := by
  rw [measures, Measures, Positioned, Positioned, style?, style?, tag?, hx]
  cases d.node? a with
  | none => simp
  | some y => simp [or_assoc]

/-- Of the nodes on the way up, the root comes last. -/
theorem WellFormed.mem_takeWhile_root (h : WellFormed d) : ∀ n,
    m ∈ (d.inclusiveAncestors n).takeWhile (· ≠ root) ↔ d.AtOrAbove m n ∧ m ≠ root := by
  simp only [← h.mem_inclusiveAncestors]
  refine step_induction h.acyclic fun n ih => ?_
  rw [inclusiveAncestors, path_some h.acyclic, List.takeWhile_cons]
  by_cases hn : n = root
  · subst hn
    rw [h.root_top, path_none]
    simp
  · rw [if_pos (decide_eq_true hn), List.mem_cons, List.mem_cons]
    cases hk : d.parent? n with
    | none =>
      rw [path_none]
      simp only [List.takeWhile_nil, List.not_mem_nil, or_false]
      exact ⟨fun hm => ⟨hm, hm ▸ hn⟩, fun hm => hm.1⟩
    | some k =>
      rw [← inclusiveAncestors, ih k hk, or_and_right]
      exact or_congr_left ⟨fun hm => ⟨hm, hm ▸ hn⟩, fun hm => hm.1⟩

theorem WellFormed.isRendered_iff (h : WellFormed d) (hn : n < d.size) :
    d.isRendered n = true ↔ d.Rendered n := by
  have hall : (∀ m, d.AtOrAbove m n ∧ m ≠ root →
      ((d.style? m).map (!·.isHidden)).getD false = true) ↔
      ∀ m s, d.AtOrAbove m n → m ≠ root → d.style? m = some s → s.isHidden = false := by
    refine ⟨fun hall m s hm hne hs => ?_, fun hall m hm => ?_⟩
    · have hm := hall m ⟨hm, hne⟩
      rw [hs] at hm
      simpa using hm
    · obtain ⟨x, hx⟩ := exists_node (h.acyclic.lt_of_reaches hn hm.1)
      have hs : d.style? m = some x.style := by rw [style?, hx]; rfl
      rw [hs]
      simpa using hall m x.style hm.1 hm.2 hs
  simp only [isRendered, Bool.and_eq_true, List.contains_iff_mem, List.all_eq_true,
    h.mem_takeWhile_root, h.mem_inclusiveAncestors, hall]
  exact ⟨fun h => ⟨h.1, h.2⟩, fun h => ⟨h.attached, h.visible⟩⟩

/-- What is rendered is shown, as long as the root is not hidden. -/
theorem rendered_iff_shown (hroot : ∀ s, d.style? root = some s → s.isHidden = false) :
    d.Rendered n ↔ d.Shown n := by
  refine ⟨fun h => ⟨h.attached, fun m s hm hs => ?_⟩,
    fun h => ⟨h.attached, fun m s hm _ hs => h.visible m s hm hs⟩⟩
  by_cases hne : m = root
  · exact hroot s (hne ▸ hs)
  · exact h.visible m s hm hne hs

/-- A search among the ancestors finds the nearest match. -/
theorem WellFormed.find?_ancestors (h : WellFormed d) {P : NodeId → Bool} :
    (d.ancestors n).find? P = some a ↔ d.Above a n ∧ P a = true ∧
      ∀ m, d.Above m n → P m = true → d.AtOrAbove m a := by
  simp only [Above, TransGen.head'_iff, ancestors]
  cases hk : d.parent? n with
  | none => simp [path_none, Step, hk]
  | some k =>
    rw [find?_path_eq_some h.acyclic]
    simp [Step, hk, AtOrAbove]

/-- The layout follows the rule: it links what is laid out, to the nearest ancestor that measures
it. -/
theorem WellFormed.layoutParent?_eq_some_iff (h : WellFormed d) :
    d.layoutParent? n = some a ↔ d.LaidOut n ∧ d.NearestMeasuring n a := by
  rw [layoutParent?]
  cases hx : d.node? n with
  | none =>
    refine ⟨fun hnone => absurd hnone.symm (Option.some_ne_none a), ?_⟩
    rintro ⟨-, ha⟩
    obtain ⟨k, hk, -⟩ := TransGen.head'_iff.mp ha.above
    rw [Step, parent?, hx] at hk
    cases hk
  | some x =>
    have htag : d.tag? n = some x.tag := by rw [tag?, hx]; rfl
    have hrendered := h.isRendered_iff (lt_size_of_node hx)
    have hlaid : (x.tag = .text || n = root || n = body || !d.isRendered n) = false ↔
        d.LaidOut n := by
      simp only [Bool.or_eq_false_iff, decide_eq_false_iff_not, Bool.not_eq_false', hrendered]
      constructor
      · rintro ⟨⟨⟨htext, hroot⟩, hbody⟩, hshown⟩
        exact ⟨by rwa [htag, ne_eq, Option.some.injEq], ⟨hroot, hbody⟩, hshown⟩
      · rintro ⟨helement, ⟨hroot, hbody⟩, hshown⟩
        exact ⟨⟨⟨fun ht => helement (by rw [htag, ht]), hroot⟩, hbody⟩, hshown⟩
    dsimp only
    split
    · rename_i hout
      refine ⟨fun hnone => absurd hnone.symm (Option.some_ne_none a), ?_⟩
      rintro ⟨hl, -⟩
      rw [hlaid.mpr hl] at hout
      cases hout
    · rename_i hin
      rw [Bool.not_eq_true, hlaid] at hin
      simp only [h.find?_ancestors, measures_iff hx]
      constructor
      · rintro ⟨habove, hmeasures, hnearest⟩
        exact ⟨hin, habove, hmeasures, hnearest⟩
      · rintro ⟨-, habove, hmeasures, hnearest⟩
        exact ⟨habove, hmeasures, hnearest⟩

/-- The layout follows the rule for what is shown, as long as the root is not hidden. -/
theorem WellFormed.layoutParent?_eq_some (h : WellFormed d)
    (hroot : ∀ s, d.style? root = some s → s.isHidden = false) :
    d.layoutParent? n = some a ↔ d.PositionedAncestor n a := by
  rw [h.layoutParent?_eq_some_iff]
  constructor
  · rintro ⟨⟨helement, hinner, hrendered⟩, habove, hmeasures, hnearest⟩
    exact ⟨helement, hinner, (rendered_iff_shown hroot).mp hrendered, habove, hmeasures, hnearest⟩
  · rintro ⟨helement, hinner, hshown, habove, hmeasures, hnearest⟩
    exact ⟨⟨helement, hinner, (rendered_iff_shown hroot).mpr hshown⟩, habove, hmeasures, hnearest⟩

/-- Where an ancestor measures a node, one of these is the nearest. -/
theorem WellFormed.exists_nearestMeasuring (h : WellFormed d) (ha : d.Above a n)
    (hmeasures : d.Measures n a) : ∃ b, d.NearestMeasuring n b := by
  obtain ⟨k, hk, -⟩ := TransGen.head'_iff.mp ha
  obtain ⟨x, hx⟩ := exists_node (lt_size_of_parent hk)
  have hmeasured := (measures_iff hx).mpr hmeasures
  cases hfind : (d.ancestors n).find? (d.measures (!x.style.position.isPositioned)) with
  | none =>
    have hnone := List.find?_eq_none.mp hfind a (h.mem_ancestors.mpr ha)
    exact absurd hmeasured hnone
  | some b =>
    simp only [h.find?_ancestors, measures_iff hx] at hfind
    exact ⟨b, hfind.1, hfind.2.1, hfind.2.2⟩

/-- A shown element with an ancestor that measures it has a positioned ancestor. -/
theorem WellFormed.exists_positionedAncestor (h : WellFormed d) (ht : d.tag? n ≠ some .text)
    (hinner : n ≠ root ∧ n ≠ body) (hshown : d.Shown n) (ha : d.Above a n)
    (hmeasures : d.Measures n a) : ∃ b, d.PositionedAncestor n b := by
  obtain ⟨b, habove, hmeasured, hnearest⟩ := h.exists_nearestMeasuring ha hmeasures
  exact ⟨b, ht, hinner, hshown, habove, hmeasured, hnearest⟩

/-! ### The links of the layout lead upwards -/

theorem layoutParent?_above (hd : WellFormed d) (h : d.layoutParent? n = some a) :
    d.Above a n := by
  rw [layoutParent?] at h
  split at h
  · cases h
  · split at h
    · cases h
    · exact hd.mem_ancestors.mp (List.mem_of_find?_eq_some h)

theorem WellFormed.acyclic_layoutParent (h : WellFormed d) : Acyclic d.layoutParent? d.size where
  source_lt n a hn := by
    by_contra hlt
    rw [layoutParent?_of_size_le (Nat.le_of_not_lt hlt)] at hn
    cases hn
  target_lt _ _ hn := h.layoutParent_lt hn
  irrefl n hn := by
    have habove : ∀ a, TransGen (Step d.layoutParent?) n a → d.Above a n := fun a ha => by
      induction ha with
      | single hs => exact layoutParent?_above h hs
      | tail _ hs ih => exact TransGen.trans ih (layoutParent?_above h hs)
    exact h.not_above_self n (habove n hn)

end FormPage.Document
