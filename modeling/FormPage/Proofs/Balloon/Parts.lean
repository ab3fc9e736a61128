import FormPage.Proofs.Document.Added
import FormPage.Proofs.Document.Operations

/-!
The nodes of a balloon as trees. Building a balloon lays out the tree of one description below the
body; adopting an element grafts a region into it where it holds none; filling the region takes
every child out and grafts one text. Each of the three is described here by what it leaves, so that
no later proof looks into the edits.
-/

namespace FormPage.Balloon

open Document

variable {d : Document} {b : Balloon} {n m region element : NodeId} {t : Tag}

/-- The description of the region that holds the text. -/
def regionSpec : NodeSpec where
  tag := .span
  attributes := (∅ : OrderedMap String String).insert "class" "text"

/-- The description of a decorated edge. -/
def bandSpec (cssClass : String) : NodeSpec where
  tag := .span
  attributes := (∅ : OrderedMap String String).insert "class" cssClass
  style := { display := .block }

/-- The description of a newly built balloon. -/
def elementSpec (id cssClass : String) : NodeSpec where
  tag := .span
  attributes := ((∅ : OrderedMap String String).insert "id" id).insert "class" cssClass
  style := { position := .absolute }
  children := [bandSpec "top", regionSpec, bandSpec "bottom"]

/-- The description of the text of a balloon. -/
def textSpec (text : String) : NodeSpec where
  tag := .text
  text := some text

/-! ### Building and adopting -/

theorem edit_appendBand (d : Document) (element : NodeId) (cssClass : String) :
    d.edit (appendBand element cssClass) =
      (d.lay (bandSpec cssClass)).edit (appendChild element d.size) := by
  have hspan : Tag.span ≠ .text := by decide
  rw [appendBand, edit_bind, createElement_first]
  dsimp only
  rw [edit_bind, setAttribute_first hspan]
  dsimp only
  rw [edit_bind, restyle_first]
  rfl

theorem edit_appendTextRegion (d : Document) (element : NodeId) :
    d.edit (appendTextRegion element) =
      (d.lay regionSpec).edit (appendChild element d.size >>= fun _ => pure d.size) := by
  have hspan : Tag.span ≠ .text := by decide
  rw [appendTextRegion, edit_bind, createElement_first]
  dsimp only
  rw [edit_bind, setAttribute_first hspan]
  rfl

/-- Building a balloon lays out its description and puts it below the body. -/
theorem edit_build (h : 0 < d.size) (id cssClass : String) :
    d.edit (build id cssClass) = (d.lay (elementSpec id cssClass)).edit
      (appendChild body d.size >>= fun _ => pure ⟨d.size, d.size + 2⟩) := by
  have hspan : Tag.span ≠ .text := by decide
  rw [build, edit_bind, createElement_first]
  dsimp only
  rw [edit_bind, setAttribute_first hspan]
  dsimp only
  rw [edit_bind, setAttribute_first hspan]
  dsimp only
  rw [edit_bind, restyle_first]
  dsimp only
  rw [edit_bind, edit_appendBand, appendChild_first h rfl rfl]
  dsimp only
  rw [edit_bind, edit_appendTextRegion, edit_bind, appendChild_first h rfl rfl]
  dsimp only [edit_pure]
  rw [edit_bind, edit_appendBand, appendChild_first h rfl rfl, size_addNodes]
  rfl

/-- The document after taking over an element without a region. -/
theorem edit_appendTextRegion_of_holder (h : WellFormed d) (ht : d.tag? element = some t)
    (hv : t.isVoid = false) : d.edit (appendTextRegion element) =
      (.ok d.size, d.graftLast element [regionSpec]) := by
  rw [edit_appendTextRegion, edit_bind, h.appendChild_lay ht hv]; rfl

theorem edit_appendTextRegion_of_void (ht : d.tag? element = some t) (hv : t.isVoid = true) :
    d.edit (appendTextRegion element) =
      (.error (.notAContainer element), d.lay regionSpec) := by
  rw [edit_appendTextRegion, edit_bind, appendChild_lay_void ht hv]

theorem edit_build_of_body (h : WellFormed d) (ht : d.tag? body = some .body)
    (id cssClass : String) : d.edit (build id cssClass) =
      (.ok ⟨d.size, d.size + 2⟩, d.graftLast body [elementSpec id cssClass]) := by
  rw [edit_build (Nat.zero_lt_of_lt (lt_size_of_tag ht)), edit_bind, h.appendChild_lay ht rfl]; rfl

/-- What adopting does: nothing where there are parts or no element with the id; else it takes a
region that is there, or adds one, or fails at an element that holds nothing. -/
theorem adopt_cases (h : WellFormed d) (b : Balloon) :
    (∃ parts, b.parts = some parts ∧ b.adopt d = (true, b, d)) ∨
    (b.parts = none ∧ d.elementById? b.id = none ∧ b.adopt d = (false, b, d)) ∨
    ∃ element t, b.parts = none ∧ d.elementById? b.id = some element ∧
      d.tag? element = some t ∧
      ((∃ region, ((d.children element).find? fun n => hasClass d n "text") = some region ∧
          b.adopt d = (true, { b with parts := some { element, textRegion := region } }, d)) ∨
        (((d.children element).find? fun n => hasClass d n "text") = none ∧ t.isVoid = false ∧
          b.adopt d = (true, { b with parts := some { element, textRegion := d.size } },
            d.graftLast element [regionSpec])) ∨
        (t.isVoid = true ∧ b.adopt d = (false, b, d.lay regionSpec))) := by
  cases hparts : b.parts with
  | some parts => exact .inl ⟨parts, rfl, by simp [adopt, hparts]⟩
  | none =>
    cases hid : d.elementById? b.id with
    | none => exact .inr (.inl ⟨rfl, rfl, by simp [adopt, hparts, hid]⟩)
    | some element =>
      obtain ⟨x, hx⟩ : ∃ x, d.node? element = some x := by
        have ha := List.find?_some hid
        rw [decide_eq_true_eq, attribute?, Option.bind_eq_some_iff] at ha
        exact ⟨ha.choose, ha.choose_spec.1⟩
      have ht : d.tag? element = some x.tag := by rw [tag?, hx]; rfl
      refine .inr (.inr ⟨element, x.tag, rfl, rfl, ht, ?_⟩)
      cases hr : (d.children element).find? fun n => hasClass d n "text" with
      | some region =>
        refine .inl ⟨region, rfl, ?_⟩
        simp [adopt, hparts, hid, hr]
      | none =>
        cases hv : x.tag.isVoid with
        | false =>
          refine .inr (.inl ⟨rfl, rfl, ?_⟩)
          simp [adopt, hparts, hid, hr, edit_appendTextRegion_of_holder h ht hv]
        | true =>
          refine .inr (.inr ⟨rfl, ?_⟩)
          simp [adopt, hparts, hid, hr, edit_appendTextRegion_of_void ht hv]

/-! ### Filling -/

/-- The document with all children of a node taken out. -/
def cleared (d : Document) (region : NodeId) : Document :=
  (d.children region).foldl (clearChild region) d

theorem clearChild_eq (region : NodeId) (d : Document) (c : NodeId) :
    clearChild region d c = if d.parent? c = some region then d.detach c else d := by
  simp only [clearChild, edit, removeChild, ExceptT.run, StateT.run, ne_eq]
  by_cases h : d.parent? c = some region <;> simp [h]

/-- Taking children out one after the other keeps all but their links to the region. -/
theorem clear_eq (region : NodeId) : ∀ (ns : List NodeId) {d : Document}, WellFormed d →
    ∀ m, let d' := ns.foldl (clearChild region) d
      d'.parent? m = (if m ∈ ns ∧ d.parent? m = some region then none else d.parent? m) ∧
      d'.face? m = d.face? m ∧ d'.offsetLink? m = d.offsetLink? m ∧ d'.size = d.size
  | [], _, _, m => by simp
  | c :: ns, d, h, m => by
    have hstep : WellFormed (clearChild region d c) := by
      rw [clearChild_eq]; split
      · exact h.detach c
      · exact h
    obtain ⟨hparent, hface, hlink, hsize⟩ := clear_eq region ns hstep m
    rw [List.foldl_cons]
    refine ⟨hparent.trans ?_, hface.trans ?_, hlink.trans ?_, hsize.trans ?_⟩ <;>
      rw [clearChild_eq] <;> by_cases hc : d.parent? c = some region
    · rw [if_pos hc, parent?_detach]
      by_cases hm : m = c
      · simp [hm, hc]
      · simp [hm]
    · rw [if_neg hc]
      by_cases hm : m = c
      · simp [hm, hc]
      · simp [hm]
    · rw [if_pos hc, face?_detach]
    · rw [if_neg hc]
    · rw [if_pos hc, offsetLink?_detach]
    · rw [if_neg hc]
    · rw [if_pos hc, size_detach]
    · rw [if_neg hc]

theorem children_clear (region m : NodeId) : ∀ (ns : List NodeId) {d : Document}, WellFormed d →
    (ns.foldl (clearChild region) d).children m =
      (d.children m).filter fun c => ¬ (c ∈ ns ∧ d.parent? c = some region)
  | [], _, _ => by simp
  | c :: ns, d, h => by
    rw [List.foldl_cons, clearChild_eq]
    by_cases hc : d.parent? c = some region
    · rw [if_pos hc, children_clear region m ns (h.detach c), h.children_detach, List.filter_filter]
      refine List.filter_congr fun a _ => ?_
      rw [parent?_detach]
      by_cases ha : a = c <;> simp [ha, hc]
    · rw [if_neg hc, children_clear region m ns h]
      refine List.filter_congr fun a _ => ?_
      by_cases ha : a = c <;> simp [ha, hc]

section Cleared

variable (h : WellFormed d)
include h

theorem children_cleared (region m : NodeId) :
    (cleared d region).children m = if m = region then [] else d.children m := by
  rw [cleared, children_clear region m _ h]
  split
  · rename_i hm
    subst hm
    refine List.filter_eq_nil_iff.mpr fun c hc => ?_
    simp [hc, (h.mem_children m c).mp hc]
  · rename_i hm
    refine List.filter_eq_self.mpr fun c hc => ?_
    simp [(h.mem_children m c).mp hc, hm]

theorem wellFormed_cleared (region : NodeId) : WellFormed (cleared d region) :=
  clear_kept wellFormed_kept region _ h

theorem parent?_cleared (region m : NodeId) : (cleared d region).parent? m =
    if d.parent? m = some region then none else d.parent? m := by
  refine (clear_eq region (d.children region) h m).1.trans ?_
  simp only [h.mem_children, and_self]

theorem face?_cleared (region m : NodeId) : (cleared d region).face? m = d.face? m :=
  (clear_eq region (d.children region) h m).2.1

theorem offsetLink?_cleared (region m : NodeId) :
    (cleared d region).offsetLink? m = d.offsetLink? m :=
  (clear_eq region (d.children region) h m).2.2.1

theorem size_cleared (region : NodeId) : (cleared d region).size = d.size :=
  (clear_eq region (d.children region) h region).2.2.2

theorem tag?_cleared (region m : NodeId) : (cleared d region).tag? m = d.tag? m := by
  rw [tag?_eq_face, tag?_eq_face, face?_cleared h]

/-- Filling takes all children out and grafts the text. -/
theorem edit_fill (ht : d.tag? region = some t) (hv : t.isVoid = false) (text : String) :
    d.edit (fill region text) = (.ok (), (cleared d region).graftLast region [textSpec text]) := by
  have ht' : (cleared d region).tag? region = some t := by rw [tag?_cleared h, ht]
  rw [← ((wellFormed_cleared h region).appendChild_lay ht' hv)]
  rw [fill, edit_bind]
  rfl

/-- A void region is not filled. -/
theorem edit_fill_void (ht : d.tag? region = some t) (hv : t.isVoid = true) (text : String) :
    d.edit (fill region text) =
      (.error (.notAContainer region), (cleared d region).lay (textSpec text)) := by
  have ht' : (cleared d region).tag? region = some t := by rw [tag?_cleared h, ht]
  rw [← appendChild_lay_void ht' hv]
  rw [fill, edit_bind]
  rfl

end Cleared

end FormPage.Balloon
