import FormPage.Proofs.Page.Load

/-!
The arrangement of a loaded page. The nodes of a loaded document are the root, the body and then one
node per described node of the normal form, numbered in document order (`Arranged`), which is also
the order in which a walk below the body meets them. Main statement: a page loads exactly if no
described input has a text or children and no described text has children; otherwise loading fails
with the first fault; and what is loaded is arranged.
-/

namespace FormPage

open Document
open NodeSpec (flatAll nodesAll places normalAll faultsAll mem_flatAll_cons)

namespace NodeSpec

/-! ### Laid-out nodes by their numbers -/

mutual

theorem exists_node_of_flat (parent : Option NodeId) (base : Nat) : ∀ (s : NodeSpec) {i : Nat}
    {u : NodeSpec}, s.flat[i]? = some u →
      ∃ q, (s.nodes parent base)[i]? = some (u.node q (base + i))
  | { tag, attributes, text, style, geometry, on, children }, 0, u, hu => by
    obtain rfl := Option.some.inj hu
    exact ⟨parent, rfl⟩
  | { tag, attributes, text, style, geometry, on, children }, i + 1, u, hu => by
    have hbelow := exists_node_of_flatAll base (base + 1) children hu
    rwa [Nat.add_assoc, Nat.add_comm 1 i] at hbelow

/-- At the number of a description among all lies its node. -/
theorem exists_node_of_flatAll (parent : NodeId) (base : Nat) : ∀ (ss : List NodeSpec) {i : Nat}
    {u : NodeSpec}, (flatAll ss)[i]? = some u →
      ∃ q, (nodesAll parent base ss)[i]? = some (u.node q (base + i))
  | s :: rest, i, u, hu => by
    rw [flatAll] at hu
    rw [nodesAll]
    by_cases hi : i < s.flat.length
    · rw [List.getElem?_append_left hi] at hu
      rw [List.getElem?_append_left (by rwa [length_nodes])]
      exact exists_node_of_flat parent base s hu
    · have hle := Nat.le_of_not_lt hi
      rw [List.getElem?_append_right hle] at hu
      rw [List.getElem?_append_right (by rwa [length_nodes]), length_nodes]
      have hrest := exists_node_of_flatAll parent (base + s.flat.length) rest hu
      rwa [Nat.add_assoc, Nat.add_sub_of_le hle] at hrest

end

end NodeSpec

/-! ### Arranged documents -/

variable {d : Document} {bs : Bindings} {ss : List NodeSpec} {spec : PageSpec} {p : Page}

/-- The nodes from `base` on have the children that descriptions laid out there have. -/
def Document.LaidFrom (d : Document) (base : Nat) (ss : List NodeSpec) : Prop :=
  ∀ i s, ss[i]? = some s → d.children (base + i) = places (base + i + 1) s.children

theorem Document.LaidFrom.left {base : Nat} {ts : List NodeSpec} (h : d.LaidFrom base (ss ++ ts)) :
    d.LaidFrom base ss := fun i s hs =>
  h i s ((List.getElem?_append_left (List.getElem?_eq_some_iff.mp hs).1).trans hs)

theorem Document.LaidFrom.right {base : Nat} {ts : List NodeSpec} (h : d.LaidFrom base (ss ++ ts)) :
    d.LaidFrom (base + ss.length) ts := fun i s hs => by
  rw [Nat.add_assoc]
  refine h _ s ?_
  rw [List.getElem?_append_right (Nat.le_add_right _ _), Nat.add_sub_cancel_left, hs]

namespace Document

mutual

theorem preorder_of_laidFrom (h : WellFormed d) : ∀ (s : NodeSpec) {base : Nat},
    d.LaidFrom base s.flat → base + s.flat.length ≤ d.size →
      d.preorder base = List.range' base s.flat.length
  | { tag, attributes, text, style, geometry, on, children }, base, hlaid, hsize => by
    have hsplit : d.LaidFrom base
        ([⟨tag, attributes, text, style, geometry, on, children⟩] ++ flatAll children) := hlaid
    rw [NodeSpec.flat, List.length_cons] at hsize ⊢
    have hchildren : d.children base = places (base + 1) children := hlaid 0 _ rfl
    have hroom : base + 1 + (flatAll children).length ≤ d.size := by omega
    have hbelow : (places (base + 1) children).flatMap d.preorder =
        List.range' (base + 1) (flatAll children).length :=
      preorders_of_laidFrom h children hsplit.right hroom
    have hlt : base < d.size := by omega
    rw [h.preorder_of_lt hlt, hchildren, hbelow, List.range'_succ]

/-- A walk meets laid-out nodes one after the other. -/
theorem preorders_of_laidFrom (h : WellFormed d) : ∀ (ss : List NodeSpec) {base : Nat},
    d.LaidFrom base (flatAll ss) → base + (flatAll ss).length ≤ d.size →
      (places base ss).flatMap d.preorder = List.range' base (flatAll ss).length
  | [], _, _, _ => rfl
  | s :: rest, base, hlaid, hsize => by
    rw [flatAll, List.length_append] at hsize
    rw [places, List.flatMap_cons, preorder_of_laidFrom h s hlaid.left (by omega),
      preorders_of_laidFrom h rest hlaid.right (by omega), flatAll, List.length_append,
      List.range'_append_1]

end

end Document

/-- The document and the handlers that descriptions are loaded into: the root, the body below it,
and one node per description and description below it, numbered in document order. Each shows what
is described, has the described children and the described handlers in their order; nothing else
has handlers, and a walk below the body meets the nodes in the order of their numbers. -/
structure Arranged (d : Document) (bs : Bindings) (ss : List NodeSpec) : Prop where
  size : d.size = 2 + (flatAll ss).length
  root : d.face? root = some { tag := .html } ∧ d.parent? root = none ∧ d.children root = [body]
  body : d.face? body = some { tag := .body } ∧ d.children body = places 2 ss
  shown : ∀ i s, (flatAll ss)[i]? = some s → d.face? (2 + i) = some s.face
  laid : ∀ i s, (flatAll ss)[i]? = some s → d.children (2 + i) = places (2 + i + 1) s.children
  bound : ∀ i s, (flatAll ss)[i]? = some s → bs.ofNode (2 + i) = s.on.entries
  unbound : ∀ n, n < 2 ∨ d.size ≤ n → bs.ofNode n = []
  order : d.descendants Document.body = List.range' 2 (d.size - 2)

/-- Loaded descriptions are arranged. -/
theorem arranged_loaded (h : ∀ x ∈ flatAll ss, x.Holds) :
    Arranged (Document.loaded (normalAll ss)) (Bindings.loaded (normalAll ss)) (normalAll ss) := by
  have hframed := framed_loaded h
  have hsize := size_loaded (normalAll ss)
  have hlaid : (Document.loaded (normalAll ss)).LaidFrom 2 (flatAll (normalAll ss)) := by
    intro i s hs
    obtain ⟨q, hq⟩ := NodeSpec.exists_node_of_flatAll Document.body 2 (normalAll ss) hs
    have hnode : (Document.empty.graftLast Document.body (normalAll ss)).node? (2 + i) =
        some (s.node q (2 + i)) :=
      (node?_graft_new Document.empty Document.body _ (normalAll ss) i).trans hq
    rw [Document.loaded, children_relayout, children_of_node hnode]
    rfl
  have hbody := children_loaded_body (normalAll ss)
  refine ⟨hsize, ⟨hframed.root_face, hframed.wellFormed.root_top, hframed.children_root⟩,
    ⟨hframed.body_face, hbody⟩, fun i s hs => ?_, hlaid, fun i s hs => ?_, fun n hn => ?_, ?_⟩
  · rw [face?_loaded_new, hs]
    rfl
  · exact Bindings.ofNode_bindFlat_new (fun _ _ => rfl) hs
  · rcases hn with hn | hn
    · exact Bindings.ofNode_loaded_of_lt hn
    · exact Bindings.ofNode_loaded_of_le (hsize ▸ hn)
  · rw [hframed.wellFormed.descendants_eq, hbody,
      preorders_of_laidFrom hframed.wellFormed _ hlaid (Nat.le_of_eq hsize.symm), hsize,
      Nat.add_sub_cancel_left]

/-! ### Acceptance -/

theorem NodeSpec.holds_iff_kinds {s : NodeSpec} : s.Holds ↔
    (s.tag = .input → s.text = none ∧ s.children = []) ∧ (s.tag = .text → s.children = []) := by
  constructor
  · intro h
    exact ⟨fun htag => ⟨h.text htag, h.children (by rw [htag]; rfl)⟩,
      fun htag => h.children (by rw [htag]; rfl)⟩
  · rintro ⟨hin, htext⟩
    refine ⟨fun htag => (hin htag).1, fun hv => ?_⟩
    cases htag : s.tag with
    | input => exact (hin htag).2
    | text => exact htext htag
    | _ => rw [htag] at hv; cases hv

theorem PageSpec.faults_eq_nil_iff (spec : PageSpec) :
    faultsAll Document.body .body 2 spec.body = [] ↔ ∀ s ∈ flatAll spec.body, s.Holds :=
  (NodeSpec.faultsAll_eq_nil_iff spec.body).trans ⟨And.right, fun h => ⟨fun _ => rfl, h⟩⟩

/-- Loading fails with the first fault. -/
theorem PageSpec.build_error {e : LoadError}
    (he : (faultsAll Document.body .body 2 spec.body).head? = some e) : spec.build = .error e := by
  have hb := NodeSpec.buildAllBelow_error spec.body ∅ (t := .body) wellFormed_empty rfl he
  rw [PageSpec.build]
  exact congrArg (fun r => r >>= fun b : Building => pure (Page.ofDocument b.document.relayout
    b.bindings spec.options spec.title)) hb

/-- A page loads exactly if no described input has a text or children and no described text has
children. Otherwise loading fails with the first fault in document order. What is loaded, before it
looks for its balloon, is the normal form of the descriptions, arranged. -/
theorem PageSpec.build_iff (spec : PageSpec) :
    ((∃ p, spec.build = .ok p) ↔ ∀ s ∈ flatAll spec.body,
      (s.tag = .input → s.text = none ∧ s.children = []) ∧ (s.tag = .text → s.children = [])) ∧
    (∀ e, spec.build = .error e ↔
      (faultsAll Document.body .body 2 spec.body).head? = some e) ∧
    ∀ p, spec.build = .ok p →
      ∃ b, NodeSpec.buildAllBelow Document.body {} spec.body = .ok b ∧
        p = Page.ofDocument b.document.relayout b.bindings spec.options spec.title ∧
        Arranged b.document.relayout b.bindings (normalAll spec.body) := by
  simp only [← NodeSpec.holds_iff_kinds]
  refine ⟨⟨fun ⟨p, hp⟩ => (PageSpec.of_build_ok hp).1, fun h => ⟨_, PageSpec.build_eq h⟩⟩,
    fun e => ⟨fun he => ?_, PageSpec.build_error⟩, fun p hp => ?_⟩
  · cases hfaults : faultsAll Document.body .body 2 spec.body with
    | nil =>
      rw [PageSpec.build_eq ((PageSpec.faults_eq_nil_iff spec).mp hfaults)] at he
      cases he
    | cons e' rest =>
      rw [PageSpec.build_error (congrArg List.head? hfaults)] at he
      obtain rfl := Except.error.inj he
      rfl
  · obtain ⟨hholds, rfl⟩ := PageSpec.of_build_ok hp
    exact ⟨_, (NodeSpec.buildAllBelow_eq spec.body ∅ Document.body (t := .body) wellFormed_empty rfl
      rfl hholds).1, rfl, arranged_loaded hholds⟩

end FormPage
