import FormPage.Proofs.PageSpec.Grow

/-!
What is wrong with descriptions. The faults of descriptions are listed in document order, each with
the number that its node gets or that of its parent (`faultsAll`): an input cannot hold a text, and
nothing can be placed in an input or a text. Main statement: building fails with the first of these
faults, and succeeds if there is none.
-/

namespace FormPage.NodeSpec

open Document Building

/-! ### Faults -/

/-- What is wrong with the node `n` of a description below a parent of kind `t`, its children
apart: a text that it cannot hold, then a parent that cannot hold it. -/
def ownFaults (parent : NodeId) (t : Tag) (n : NodeId) (s : NodeSpec) : List LoadError :=
  (if s.tag = .input ∧ s.text ≠ none then [.badText s.tag (.notAContainer n)] else []) ++
    if t.isVoid then [.badPlace s.tag (.notAContainer parent)] else []

mutual

/-- What is wrong with a description, whose node is `n`, below a parent of kind `t`. -/
def faults (parent : NodeId) (t : Tag) (n : NodeId) : NodeSpec → List LoadError
  | { tag, attributes, text, style, geometry, on, children } =>
    let s : NodeSpec := { tag, attributes, text, style, geometry, on, children }
    ownFaults parent t n s ++ faultsAll n tag (n + s.leaf.flat.length) children

/-- What is wrong with descriptions, the first node of which is `n`, below a parent of kind `t`. -/
def faultsAll (parent : NodeId) (t : Tag) (n : NodeId) : List NodeSpec → List LoadError
  | [] => []
  | s :: rest => s.faults parent t n ++ faultsAll parent t (n + s.normal.flat.length) rest

end

variable {d : Document} {bs : Bindings} {b : Building} {parent n : NodeId} {t : Tag} {e : LoadError}
  {s : NodeSpec} {ss : List NodeSpec}

theorem faults_eq (parent : NodeId) (t : Tag) (n : NodeId) (s : NodeSpec) :
    s.faults parent t n =
      ownFaults parent t n s ++ faultsAll n s.tag (n + s.leaf.flat.length) s.children := by
  cases s; rfl

example : faultsAll body .body 2
      [{ tag := .input, children := [{ tag := .input, text := some "" }] }] =
    [.badText .input (.notAContainer 3), .badPlace .input (.notAContainer 2)] := rfl

theorem ownFaults_eq_nil_iff : ownFaults parent t n s = [] ↔
    t.isVoid = false ∧ (s.tag = .input → s.text = none) := by
  rw [ownFaults, List.append_eq_nil_iff, and_comm]
  refine and_congr ?_ ?_
  · cases t.isVoid <;> simp
  · by_cases hin : s.tag = .input <;> cases s.text <;> simp [hin]

/-- A node can be built if it holds no text that it cannot hold, and its kind takes its children. -/
theorem holds_iff : s.Holds ↔
    (s.tag = .input → s.text = none) ∧ (s.children ≠ [] → s.tag.isVoid = false) := by
  refine ⟨fun h => ⟨h.text, fun hne => ?_⟩, fun ⟨htext, hchildren⟩ => ⟨htext, fun hv => ?_⟩⟩
  · exact Bool.eq_false_iff.mpr fun hv => hne (h.children hv)
  · by_contra hne
    rw [hchildren hne] at hv
    cases hv

mutual

theorem faults_eq_nil_iff : ∀ (s : NodeSpec) {parent : NodeId} {t : Tag} {n : NodeId},
    s.faults parent t n = [] ↔ t.isVoid = false ∧ ∀ x ∈ s.flat, x.Holds
  | { tag, attributes, text, style, geometry, on, children }, parent, t, n => by
    rw [faults, List.append_eq_nil_iff, ownFaults_eq_nil_iff, faultsAll_eq_nil_iff children, flat,
      List.forall_mem_cons, holds_iff]
    tauto

/-- Nothing is wrong exactly if the parent takes children and every described node can be built. -/
theorem faultsAll_eq_nil_iff : ∀ (ss : List NodeSpec) {parent : NodeId} {t : Tag} {n : NodeId},
    faultsAll parent t n ss = [] ↔
      (ss ≠ [] → t.isVoid = false) ∧ ∀ x ∈ flatAll ss, x.Holds
  | [], _, _, _ => by simp [faultsAll, flatAll]
  | s :: rest, parent, t, n => by
    rw [faultsAll, List.append_eq_nil_iff, faults_eq_nil_iff s, faultsAll_eq_nil_iff rest, flatAll,
      List.forall_mem_append]
    constructor
    · rintro ⟨⟨hv, hfirst⟩, -, hrest⟩
      exact ⟨fun _ => hv, hfirst, hrest⟩
    · rintro ⟨hv, hfirst, hrest⟩
      have hv := hv (List.cons_ne_nil s rest)
      exact ⟨⟨hv, hfirst⟩, fun _ => hv, hrest⟩

end

/-! ### Building with faults -/

/-- A node is not placed if something is wrong with it: its first fault is what it fails with. -/
theorem place_ownFaults (bs : Bindings) (ht : d.tag? parent = some t)
    (he : (ownFaults parent t d.size s).head? = some e) : place ⟨d, bs⟩ parent s = .error e := by
  rw [ownFaults] at he
  by_cases hin : s.tag = .input ∧ s.text ≠ none
  · rw [if_pos hin] at he
    obtain rfl := Option.some.inj he
    exact place_badText d bs parent hin.1 hin.2
  · rw [if_neg hin, List.nil_append] at he
    split at he
    · rename_i hv
      obtain rfl := Option.some.inj he
      exact place_badPlace bs ht hv fun htag => by_contra fun hne => hin ⟨htag, hne⟩
    · cases he

mutual

/-- Building a description fails with what is first wrong with it. -/
theorem buildBelow_error : ∀ (s : NodeSpec) {d : Document} (bs : Bindings) {parent : NodeId}
    {t : Tag} {e : LoadError}, WellFormed d → d.tag? parent = some t →
      (s.faults parent t d.size).head? = some e → s.buildBelow parent ⟨d, bs⟩ = .error e
  | { tag, attributes, text, style, geometry, on, children }, d, bs, parent, t, e, h, ht, he => by
    let s : NodeSpec := { tag, attributes, text, style, geometry, on, children }
    rw [buildBelow]
    rw [faults_eq, List.head?_append, Option.or_eq_some_iff, List.head?_eq_none_iff] at he
    rcases he with he | ⟨hown, he⟩
    · rw [place_ownFaults bs ht he]
      rfl
    · obtain ⟨hv, hin⟩ := ownFaults_eq_nil_iff.mp hown
      have htag := tag?_graftLast_size d parent s.leaf
      rw [leaf_tag] at htag
      have hsize : (d.graftLast parent [s.leaf]).size = d.size + s.leaf.flat.length := by
        rw [graftLast, size_graft, flatAll, flatAll, List.append_nil]
      rw [← hsize] at he
      rw [place_eq bs h ht hv hin]
      exact buildAllBelow_error children _ (wellFormed_grow_leaf h ht hv hin) htag he

/-- Building descriptions fails with what is first wrong with them. -/
theorem buildAllBelow_error : ∀ (ss : List NodeSpec) {d : Document} (bs : Bindings)
    {parent : NodeId} {t : Tag} {e : LoadError}, WellFormed d → d.tag? parent = some t →
      (faultsAll parent t d.size ss).head? = some e → buildAllBelow parent ⟨d, bs⟩ ss = .error e
  | s :: rest, d, bs, parent, t, e, h, ht, he => by
    rw [faultsAll, List.head?_append, Option.or_eq_some_iff, List.head?_eq_none_iff] at he
    rw [buildAllBelow]
    rcases he with he | ⟨hfirst, he⟩
    · rw [buildBelow_error s bs h ht he]
      rfl
    · obtain ⟨hv, hholds⟩ := (faults_eq_nil_iff s).mp hfirst
      have hbuilt := buildBelow_eq s bs h ht hv hholds
      have hsize : (d.graftLast parent [s.normal]).size = d.size + s.normal.flat.length := by
        rw [graftLast, size_graft, flatAll, flatAll, List.append_nil]
      rw [← hsize] at he
      rw [hbuilt.1]
      refine buildAllBelow_error rest _ hbuilt.2 ?_ he
      rw [tag?_graftLast_old (lt_size_of_tag ht), ht]

end

/-- What was built could be built: the parent takes children, and every described node holds what
is described below it. -/
theorem holds_of_buildAllBelow (h : WellFormed d) (ht : d.tag? parent = some t)
    (hb : buildAllBelow parent ⟨d, bs⟩ ss = .ok b) :
    (ss ≠ [] → t.isVoid = false) ∧ ∀ x ∈ flatAll ss, x.Holds := by
  have hnone : (faultsAll parent t d.size ss).head? = none := by
    refine Option.eq_none_iff_forall_ne_some.mpr fun e he => ?_
    rw [buildAllBelow_error ss bs h ht he] at hb
    cases hb
  exact (faultsAll_eq_nil_iff ss).mp (List.head?_eq_none_iff.mp hnone)

end FormPage.NodeSpec
