import FormPage.PageSpec.Build
import FormPage.Proofs.Document.Added
import FormPage.Proofs.Page.Handlers
import FormPage.Proofs.PageSpec.Normal

/-!
What building does. Building descriptions below a parent grafts their normal forms behind its
children and binds their handlers, if the parent takes children and every described node can be
built (`buildAllBelow_eq`).
-/

namespace FormPage

open Document NodeSpec

/-! ### Growing -/

/-- Binds the handlers of descriptions to the nodes from an index on. -/
def Bindings.bindFlat (base : Nat) : List NodeSpec → Bindings → Bindings
  | [], bs => bs
  | s :: rest, bs => Bindings.bindFlat (base + 1) rest (bs.bindAll base s.on.entries)

theorem Bindings.bindFlat_append : ∀ (ss ts : List NodeSpec) (base : Nat) (bs : Bindings),
    Bindings.bindFlat base (ss ++ ts) bs =
      Bindings.bindFlat (base + ss.length) ts (Bindings.bindFlat base ss bs)
  | [], _, _, _ => rfl
  | s :: ss, ts, base, bs => by
    rw [List.cons_append, bindFlat, bindFlat_append ss ts, bindFlat, List.length_cons,
      Nat.add_assoc, Nat.add_comm 1]

namespace Building

/-- What is built so far with the trees of descriptions below a parent, and their handlers. -/
def grow (b : Building) (parent : NodeId) (ss : List NodeSpec) : Building where
  document := b.document.graftLast parent ss
  bindings := Bindings.bindFlat b.document.size (flatAll ss) b.bindings

variable {b b' : Building} {d : Document} {bs : Bindings} {parent n : NodeId} {s : NodeSpec}
  {ss ts : List NodeSpec} {t : Tag}

theorem grow_nil (b : Building) (parent : NodeId) : b.grow parent [] = b := by
  obtain ⟨d, bs⟩ := b
  simp only [grow, graftLast, graft, places, nodesAll, List.append_nil, addNodes_nil, flatAll,
    Bindings.bindFlat, mk.injEq, and_true]
  cases d
  simp only [update, Document.mk.injEq, and_true]
  refine Array.ext_getElem? fun i => ?_
  rw [Array.getElem?_modify]
  split <;> simp

/-- Siblings grow one after the other. -/
theorem grow_grow (h : parent < b.document.size) (ss ts : List NodeSpec) :
    (b.grow parent ss).grow parent ts = b.grow parent (ss ++ ts) := by
  simp only [grow, mk.injEq]
  constructor
  · simp only [graftLast, graft, size_addNodes, size_update, length_nodesAll]
    rw [update_addNodes_old (by rwa [size_update]), update_update, addNodes_addNodes,
      nodesAll_append, places_append]
    simp only [Function.comp_def, List.append_assoc]
  · rw [flatAll_append, Bindings.bindFlat_append, graftLast, size_graft]

/-- The children of a new node grow below it. -/
theorem grow_below (b : Building) (parent : NodeId) (s : NodeSpec) (ss : List NodeSpec) :
    (b.grow parent [s]).grow b.document.size ss =
      b.grow parent [{ s with children := s.children ++ ss }] := by
  simp only [grow, mk.injEq]
  have hflat : ∀ x : NodeSpec, flatAll [x] = x :: flatAll x.children := fun x => by
    rw [flatAll, flatAll, List.append_nil, flat_eq]
  constructor
  · have hnew := update_addNodes_new
      (b.document.update parent fun x => { x with children := x.children ++ [b.document.size] })
      (nodesAll parent b.document.size [s]) 0 fun x =>
        { x with children := x.children ++ places (b.document.size + (flatAll [s]).length) ss }
    rw [size_update, Nat.add_zero] at hnew
    have hplaces : ∀ x : NodeSpec, places b.document.size [x] = [b.document.size] := fun _ => rfl
    have hbase : b.document.size + (1 + (flatAll s.children).length) =
        b.document.size + 1 + (flatAll s.children).length := by omega
    simp only [graftLast, graft, hplaces, size_addNodes, size_update, length_nodesAll]
    rw [hnew, addNodes_addNodes, nodesAll_singleton, nodesAll_singleton, nodes_eq, nodes_eq,
      List.modify_zero_cons, nodesAll_append, hflat, List.length_cons,
      Nat.add_comm (flatAll s.children).length 1, hbase]
    simp only [node, places_append, List.cons_append]
    rfl
  · rw [hflat, hflat, Bindings.bindFlat, Bindings.bindFlat, flatAll_append,
      Bindings.bindFlat_append, graftLast, size_graft, hflat, List.length_cons,
      Nat.add_comm (flatAll s.children).length 1, Nat.add_assoc]

/-! ### Building one node -/

theorem attempt_ok {α : Type} {e : Edit α} {a : α} (h : b.document.edit e = (.ok a, d))
    (blame : TreeError → LoadError) :
    b.attempt e blame = .ok (a, { b with document := d }) := by
  rw [attempt, h]

theorem attempt_error {α : Type} {e : Edit α} {cause : TreeError}
    (h : b.document.edit e = (.error cause, d)) (blame : TreeError → LoadError) :
    b.attempt e blame = .error (blame cause) := by
  rw [attempt, h]

theorem setAttributes_first (d : Document) (bs : Bindings) (tag : Tag) :
    ∀ (es : List (String × String)) (x : Node) (xs : List Node),
    x.tag ≠ .text → setAttributes ⟨d.addNodes (x :: xs), bs⟩ d.size tag es =
      .ok ⟨d.addNodes ({ x with attributes := es.foldl (fun m e => m.insert e.1 e.2) x.attributes }
        :: xs), bs⟩
  | [], _, _, _ => rfl
  | e :: es, x, xs, hne => by
    have hset := attempt_ok (b := ⟨d.addNodes (x :: xs), bs⟩)
      (setAttribute_first hne e.1 e.2) (.badAttribute e.1 tag)
    have ih := setAttributes_first d bs tag es
      { x with attributes := x.attributes.insert e.1 e.2 } xs hne
    rw [setAttributes] at ih ⊢
    rw [List.foldlM_cons, hset]
    exact ih

theorem setText_first (bs : Bindings) (tag : Tag) {x : Node} (h : 0 < d.size) (hx : x.parent = none)
    (hv : x.tag.isVoid = false) (text : String) :
    setText ⟨d.addNodes [x], bs⟩ d.size tag (some text) =
      .ok ⟨d.addNodes ({ x with children := x.children ++ [d.size + 1] } ::
        ({ tag := .text, text := some text } : NodeSpec).nodes (some d.size) (d.size + 1)),
          bs⟩ := by
  have happend := attempt_ok (b := ⟨(d.addNodes [x]).lay { tag := .text, text := some text }, bs⟩)
    (appendChild_first h hx hv _) (.badText tag)
  rw [setText, add, push_eq_addNodes]
  exact congrArg (Except.map (·.2)) happend

theorem setText_void (d : Document) (bs : Bindings) (tag : Tag) (text : String) {x : Node}
    (hv : x.tag.isVoid = true) :
    setText ⟨d.addNodes [x], bs⟩ d.size tag (some text) =
      .error (.badText tag (.notAContainer d.size)) := by
  have ht : (d.addNodes [x]).tag? d.size = some x.tag := tag?_addNodes_new d [x] 0
  have happend := attempt_error
    (b := ⟨(d.addNodes [x]).lay { tag := .text, text := some text }, bs⟩)
    (appendChild_lay_void ht hv) (.badText tag)
  rw [setText, add, push_eq_addNodes]
  exact congrArg (Except.map (·.2)) happend

theorem furnish_first (d : Document) (bs : Bindings) (x : Node) (xs : List Node) (s : NodeSpec) :
    furnish ⟨d.addNodes (x :: xs), bs⟩ d.size s =
      ⟨d.addNodes ({ x with style := s.style, geometry := s.geometry } :: xs),
        bs.bindAll d.size s.on.entries⟩ := by
  have hnew := update_addNodes_new d (x :: xs) 0 fun node =>
    { node with style := s.style, geometry := s.geometry }
  rw [Nat.add_zero, List.modify_zero_cons] at hnew
  rw [furnish, hnew]; rfl

/-- The node of a description, with its text but before its style. -/
theorem create_eq (bs : Bindings) (h : 0 < d.size) (hin : s.tag = .input → s.text = none) :
    ∃ x xs, create ⟨d, bs⟩ s = .ok (d.size, ⟨d.addNodes (x :: xs), bs⟩) ∧
      { x with style := s.style, geometry := s.geometry } :: xs = s.leaf.nodes none d.size := by
  obtain ⟨tag, attributes, text, style, geometry, on, children⟩ := s
  simp only at hin
  by_cases htext : tag = .text
  · refine ⟨{ tag := .text, text := text.getD "" }, [], ?_, ?_⟩
    · simp only [create, htext, if_true, add, push_eq_addNodes]
    · simp only [leaf, htext, if_true]; rfl
  · have hset := setAttributes_first d bs tag attributes.entries { tag := tag } [] htext
    have hentries : attributes.entries.foldl (fun m e => m.insert e.1 e.2)
        (∅ : OrderedMap String String) = attributes := OrderedMap.ofList_entries attributes
    simp only [hentries] at hset
    cases text with
    | none =>
      refine ⟨{ tag := tag, attributes := attributes }, [], ?_, ?_⟩
      · simp only [create, htext, if_false, add, push_eq_addNodes, hset]; rfl
      · simp only [leaf, htext, if_false]; rfl
    | some text =>
      have hv : tag.isVoid = false := by
        cases tag <;>
          first | rfl | exact absurd rfl htext | exact absurd (hin rfl) (Option.some_ne_none _)
      have htext' := setText_first bs tag (x := { tag := tag, attributes := attributes }) h rfl hv
        text
      refine ⟨{ tag := tag, attributes := attributes, children := [d.size + 1] },
        ({ tag := .text, text := some text } : NodeSpec).nodes (some d.size) (d.size + 1), ?_, ?_⟩
      · simp only [create, htext, if_false, add, push_eq_addNodes, hset]
        exact congrArg (Except.map fun b => (d.size, b)) htext'
      · simp only [leaf, htext, if_false]; rfl

theorem grow_leaf (d : Document) (bs : Bindings) (parent : NodeId) (s : NodeSpec) :
    grow ⟨d, bs⟩ parent [s.leaf] =
      ⟨d.graftLast parent [s.leaf], bs.bindAll d.size s.on.entries⟩ := by
  simp only [grow, mk.injEq, true_and, flatAll, List.append_nil, flat_eq, leaf]
  by_cases htext : s.tag = .text
  · simp only [htext, if_true, flatAll, Bindings.bindFlat]
  · simp only [htext, if_false]
    cases s.text <;> rfl

/-- A node that can be built goes below a parent that takes it. -/
theorem place_eq (bs : Bindings) (h : WellFormed d) (ht : d.tag? parent = some t)
    (hv : t.isVoid = false) (hin : s.tag = .input → s.text = none) :
    place ⟨d, bs⟩ parent s = .ok (d.size, grow ⟨d, bs⟩ parent [s.leaf]) := by
  obtain ⟨x, xs, hcreate, hnodes⟩ :=
    create_eq bs (Nat.zero_lt_of_lt (lt_size_of_tag ht)) hin
  have happend := attempt_ok (b := ⟨d.lay s.leaf, bs.bindAll d.size s.on.entries⟩)
    (h.appendChild_lay ht hv) (.badPlace s.tag)
  rw [place, hcreate, grow_leaf]
  simp only [bind, Except.bind, furnish_first, hnodes]
  exact congrArg (Except.map fun x => (d.size, x.2)) happend

/-- An input that gives a text is not placed. -/
theorem place_badText (d : Document) (bs : Bindings) (parent : NodeId) (hin : s.tag = .input)
    (htext : s.text ≠ none) :
    place ⟨d, bs⟩ parent s = .error (.badText s.tag (.notAContainer d.size)) := by
  obtain ⟨text, htext⟩ := Option.ne_none_iff_exists'.mp htext
  have hset := setAttributes_first d bs .input s.attributes.entries { tag := .input } []
    (by decide)
  have hvoid := fun m => setText_void d bs .input text
    (x := { tag := .input, attributes := m }) rfl
  simp only [place, create, hin, htext, reduceCtorEq, if_false, add, push_eq_addNodes, bind,
    Except.bind, hset, hvoid]

/-- A node that can be built is not placed below a parent that does not take it. -/
theorem place_badPlace (bs : Bindings) (ht : d.tag? parent = some t) (hv : t.isVoid = true)
    (hin : s.tag = .input → s.text = none) :
    place ⟨d, bs⟩ parent s = .error (.badPlace s.tag (.notAContainer parent)) := by
  obtain ⟨x, xs, hcreate, hnodes⟩ :=
    create_eq bs (Nat.zero_lt_of_lt (lt_size_of_tag ht)) hin
  have happend := attempt_error (b := ⟨d.lay s.leaf, bs.bindAll d.size s.on.entries⟩)
    (appendChild_lay_void ht hv) (.badPlace s.tag)
  rw [place, hcreate]
  simp only [bind, Except.bind, furnish_first, hnodes]
  exact congrArg (Except.map fun x => (d.size, x.2)) happend

theorem wellFormed_lay_leaf (h : WellFormed d) (h0 : 0 < d.size)
    (hin : s.tag = .input → s.text = none) : WellFormed (d.lay s.leaf) := by
  by_cases htext : s.tag = .text
  · have hpush := h.push { s.face with attributes := ∅ } rfl rfl rfl fun _ => rfl
    rw [push_eq_addNodes] at hpush
    rw [leaf, if_pos htext]
    exact hpush
  · have hpush := h.push { s.face with text := "" } rfl rfl rfl fun ht => absurd ht htext
    rw [push_eq_addNodes] at hpush
    cases hs : s.text with
    | none => rw [leaf, if_neg htext, hs]; exact hpush
    | some text =>
      have hv : s.tag.isVoid = false := by
        cases hs' : s.tag <;> first | rfl | exact absurd hs' htext | skip
        rw [hin hs'] at hs; cases hs
      have hlaid : WellFormed ((d.addNodes [{ s.face with text := "" }]).lay
          { tag := .text, text := some text }) := by
        have := hpush.push { tag := .text, text } rfl rfl rfl fun _ => rfl
        rwa [push_eq_addNodes] at this
      have hrun := Call.run_wellFormed hlaid
        (.appendChild d.size (d.addNodes [{ s.face with text := "" }]).size)
      rw [Call.run, appendChild_first h0 rfl hv] at hrun
      rw [leaf, if_neg htext, hs]
      exact hrun

/-- A node that is placed leaves a well-formed document. -/
theorem wellFormed_grow_leaf (h : WellFormed d) (ht : d.tag? parent = some t)
    (hv : t.isVoid = false) (hin : s.tag = .input → s.text = none) :
    WellFormed (d.graftLast parent [s.leaf]) := by
  have hrun := Call.run_wellFormed
    (wellFormed_lay_leaf h (Nat.zero_lt_of_lt (lt_size_of_tag ht)) hin)
    (.appendChild parent d.size)
  rwa [Call.run, h.appendChild_lay ht hv] at hrun

theorem tag?_graftLast_old (hn : n < d.size) : (d.graftLast parent ss).tag? n = d.tag? n := by
  rw [tag?_eq_face, tag?_eq_face, graftLast, face?_graft_old hn]

theorem tag?_graftLast_size (d : Document) (parent : NodeId) (s : NodeSpec) :
    (d.graftLast parent [s]).tag? d.size = some s.tag := by
  rw [tag?_eq_face, graftLast, face?_graft_first]
  rfl

theorem leaf_tag (s : NodeSpec) : s.leaf.tag = s.tag := by rw [leaf]; split <;> rfl

end Building

/-! ### Building trees -/

namespace NodeSpec

open Building

mutual

/-- Building a description grafts its normal form. -/
theorem buildBelow_eq : ∀ (s : NodeSpec) {d : Document} (bs : Bindings) {parent : NodeId}
    {t : Tag}, WellFormed d → d.tag? parent = some t → t.isVoid = false → (∀ x ∈ s.flat, x.Holds) →
      s.buildBelow parent ⟨d, bs⟩ = .ok (grow ⟨d, bs⟩ parent [s.normal]) ∧
        WellFormed (d.graftLast parent [s.normal])
  | { tag, attributes, text, style, geometry, on, children }, d, bs, parent, t, h, ht, hv, hs => by
    have htop := hs _ (mem_flat.mpr (.inl rfl))
    have hplace := place_eq bs h ht hv htop.text
    have hleaf := wellFormed_grow_leaf h ht hv htop.text
    rw [buildBelow, hplace]
    by_cases hvoid : tag.isVoid = true
    · obtain rfl : children = [] := htop.children hvoid
      rw [normal_of_childless rfl]
      exact ⟨rfl, hleaf⟩
    · have hbelow := grow_below ⟨d, bs⟩ parent
        (leaf { tag, attributes, text, style, geometry, on, children }) (normalAll children)
      rw [normal_eq, ← hbelow]
      have htag := tag?_graftLast_size d parent
        (leaf { tag, attributes, text, style, geometry, on, children })
      rw [leaf_tag] at htag
      have hrest := buildAllBelow_eq children (grow ⟨d, bs⟩ parent
        [leaf { tag, attributes, text, style, geometry, on, children }]).bindings _ hleaf htag
        (by simpa using hvoid) fun x hx => hs x (mem_flat.mpr (.inr hx))
      refine ⟨hrest.1, ?_⟩
      exact (congrArg (fun b => WellFormed b.document) hbelow).mp hrest.2

/-- Building descriptions grafts their normal forms one behind the other. -/
theorem buildAllBelow_eq : ∀ (ss : List NodeSpec) {d : Document} (bs : Bindings)
    (parent : NodeId) {t : Tag}, WellFormed d → d.tag? parent = some t → t.isVoid = false →
      (∀ x ∈ flatAll ss, x.Holds) →
        buildAllBelow parent ⟨d, bs⟩ ss = .ok (grow ⟨d, bs⟩ parent (normalAll ss)) ∧
          WellFormed (d.graftLast parent (normalAll ss))
  | [], d, bs, parent, _, h, _, _, _ => by
    have hnil := grow_nil ⟨d, bs⟩ parent
    rw [normalAll, hnil]
    exact ⟨rfl, (congrArg (fun b => WellFormed b.document) hnil).mpr h⟩
  | s :: rest, d, bs, parent, t, h, ht, hv, hs => by
    have hlt := lt_size_of_tag ht
    have hfirst := buildBelow_eq s bs h ht hv fun x hx =>
      hs x (mem_flatAll_cons.mpr (.inl hx))
    have ht' : (d.graftLast parent [s.normal]).tag? parent = some t := by
      rw [tag?_graftLast_old hlt, ht]
    have hrest := buildAllBelow_eq rest (grow ⟨d, bs⟩ parent [s.normal]).bindings parent
      hfirst.2 ht' hv fun x hx => hs x (mem_flatAll_cons.mpr (.inr hx))
    have happend := grow_grow (b := ⟨d, bs⟩) hlt [s.normal] (normalAll rest)
    rw [buildAllBelow, hfirst.1, normalAll]
    refine ⟨hrest.1.trans (congrArg Except.ok happend), ?_⟩
    exact (congrArg (fun b => WellFormed b.document) happend).mp hrest.2

end

end NodeSpec

end FormPage
