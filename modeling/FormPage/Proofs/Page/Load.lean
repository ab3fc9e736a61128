import FormPage.Proofs.Balloon.Parts
import FormPage.Proofs.Page.Snapshot
import FormPage.Proofs.PageSpec.Faults

/-!
Loading. A page loads exactly if every described node can be built; its document is then the empty
one with the normal forms of the descriptions below the body, laid out, and the description of that
document is the list of normal forms.
-/

namespace FormPage

open Document
open NodeSpec (flatAll nodesAll places IsNormal Holds mem_flat mem_flatAll_cons length_nodes)

/-! ### Handlers of a built page -/

namespace Bindings

variable {n m : NodeId} {base i : Nat} {ss : List NodeSpec} {bs : Bindings}

theorem ofNode_bindFlat_of_lt : ∀ {ss : List NodeSpec} {base : Nat} {bs : Bindings}, n < base →
    (bindFlat base ss bs).ofNode n = bs.ofNode n
  | [], _, _, _ => rfl
  | s :: ss, base, bs, h => by
    rw [bindFlat, ofNode_bindFlat_of_lt (Nat.lt_succ_of_lt h), ofNode_bindAll,
      if_neg (Nat.ne_of_lt h)]

theorem ofNode_bindFlat_of_le : ∀ {ss : List NodeSpec} {base : Nat} {bs : Bindings} {n : Nat},
    base + ss.length ≤ n → (bindFlat base ss bs).ofNode n = bs.ofNode n
  | [], _, _, _, _ => rfl
  | s :: ss, base, bs, n, h => by
    rw [List.length_cons] at h
    rw [bindFlat, ofNode_bindFlat_of_le (by omega), ofNode_bindAll,
      if_neg (Nat.ne_of_gt (by omega))]

/-- The handlers of a description are the handlers of its node. -/
theorem ofNode_bindFlat_new : ∀ {ss : List NodeSpec} {base i : Nat} {bs : Bindings} {s : NodeSpec},
    (∀ m : Nat, base ≤ m → bs.ofNode m = []) → ss[i]? = some s →
      (bindFlat base ss bs).ofNode (base + i) = s.on.entries
  | s' :: ss, base, 0, bs, s, hbs, hs => by
    cases hs
    rw [Nat.add_zero, bindFlat, ofNode_bindFlat_of_lt (Nat.lt_succ_self base), ofNode_bindAll,
      if_pos rfl, hbs base (Nat.le_refl base)]
    exact OrderedMap.foldl_put s'.on.nodup
  | s' :: ss, base, i + 1, bs, s, hbs, hs => by
    rw [bindFlat, Nat.add_comm i 1, ← Nat.add_assoc]
    refine ofNode_bindFlat_new (fun m hm => ?_) hs
    rw [ofNode_bindAll, if_neg (Nat.ne_of_gt hm), hbs m (Nat.le_of_succ_le hm)]

end Bindings

/-! ### The description of laid-out nodes -/

namespace Page

variable {p : Page} {n : NodeId}

theorem nodeSpec_of_face {x : Node} {s : NodeSpec} (hs : s.IsNormal) (hface : x.face = s.face)
    (hon : p.bindings.ofNode n = s.on.entries) : p.nodeSpec n x s.children = s := by
  obtain ⟨tag, attributes, text, style, geometry, on, children⟩ := s
  have htag : x.tag = tag := congrArg Node.tag hface
  have hattributes : x.attributes = attributes := congrArg Node.attributes hface
  have htext : x.text = text.getD "" := congrArg Node.text hface
  have hstyle : x.style = style := congrArg Node.style hface
  have hgeometry : x.geometry = geometry := congrArg Node.geometry hface
  rw [IsNormal] at hs
  rw [nodeSpec, htag, hattributes, htext, hstyle, hgeometry, hon, OrderedMap.ofList_entries]
  by_cases ht : tag = .text
  · simp only [ht, if_true] at hs ⊢
    obtain ⟨text, rfl⟩ := Option.isSome_iff_exists.mp hs.2
    rw [hs.1]; rfl
  · simp only [ht, if_false] at hs ⊢
    rw [hs]

/-- The nodes at the indices from `base` on are as laid out. -/
def Shows (p : Page) (base : Nat) (xs : List Node) (ss : List NodeSpec) : Prop :=
  (∀ i x, xs[i]? = some x →
    p.document.face? (base + i) = some x.face ∧ p.document.children (base + i) = x.children) ∧
  ∀ i s, ss[i]? = some s → p.bindings.ofNode (base + i) = s.on.entries

theorem Shows.left {base : Nat} {xs ys : List Node} {ss ts : List NodeSpec}
    (h : p.Shows base (xs ++ ys) (ss ++ ts)) : p.Shows base xs ss :=
  ⟨fun i x hx => h.1 i x <| by
      rw [List.getElem?_append_left (List.getElem?_eq_some_iff.mp hx).1, hx],
    fun i s hs => h.2 i s <| by
      rw [List.getElem?_append_left (List.getElem?_eq_some_iff.mp hs).1, hs]⟩

theorem Shows.right {base : Nat} {xs ys : List Node} {ss ts : List NodeSpec}
    (h : p.Shows base (xs ++ ys) (ss ++ ts)) (hlen : xs.length = ss.length) :
    p.Shows (base + ss.length) ys ts := by
  refine ⟨fun i y hy => ?_, fun i t ht => ?_⟩
  · rw [Nat.add_assoc]
    refine h.1 _ y ?_
    rw [← hlen, List.getElem?_append_right (Nat.le_add_right _ _), Nat.add_sub_cancel_left, hy]
  · rw [Nat.add_assoc]
    refine h.2 _ t ?_
    rw [List.getElem?_append_right (Nat.le_add_right _ _), Nat.add_sub_cancel_left, ht]

mutual

/-- A laid-out node has the description from which it was laid out. -/
theorem snapshotBelow_of_shows (h : WellFormed p.document) : ∀ (s : NodeSpec) {base : Nat}
    {parent : Option NodeId}, (∀ t ∈ s.flat, t.IsNormal) →
      p.Shows base (s.nodes parent base) s.flat → p.snapshotBelow base = s
  | { tag, attributes, text, style, geometry, on, children }, base, parent, hn, hs => by
    obtain ⟨hface, hchildren⟩ := hs.1 0 _ rfl
    rw [Nat.add_zero] at hface hchildren
    obtain ⟨x, hx, hxf⟩ := Option.map_eq_some_iff.mp hface
    have hsplit : p.Shows base
        ([NodeSpec.node parent base ⟨tag, attributes, text, style, geometry, on, children⟩] ++
          nodesAll base (base + 1) children)
        ([⟨tag, attributes, text, style, geometry, on, children⟩] ++ flatAll children) := hs
    have hbelow := snapshotBelow_of_shows_all h children
      (fun t ht => hn t (mem_flat.mpr (.inr ht))) (hsplit.right rfl)
    rw [snapshotBelow_of_node h hx, hchildren]
    refine (congrArg (p.nodeSpec base x) hbelow).trans ?_
    exact nodeSpec_of_face (hn _ (mem_flat.mpr (.inl rfl))) hxf (hs.2 0 _ rfl)

theorem snapshotBelow_of_shows_all (h : WellFormed p.document) : ∀ (ss : List NodeSpec)
    {base : Nat} {parent : NodeId}, (∀ t ∈ flatAll ss, t.IsNormal) →
      p.Shows base (nodesAll parent base ss) (flatAll ss) →
        (places base ss).map p.snapshotBelow = ss
  | [], _, _, _, _ => rfl
  | s :: rest, base, parent, hn, hs => by
    have hrest := Shows.right hs (length_nodes (some parent) base s)
    rw [places, List.map_cons,
      snapshotBelow_of_shows h s (fun t ht => hn t (mem_flatAll_cons.mpr (.inl ht))) hs.left,
      snapshotBelow_of_shows_all h rest (fun t ht => hn t (mem_flatAll_cons.mpr (.inr ht))) hrest]

end

end Page

/-! ### Loaded pages -/

/-- The document that descriptions in normal form are loaded into. -/
def Document.loaded (ss : List NodeSpec) : Document := (Document.empty.graftLast body ss).relayout

/-- The handlers that descriptions in normal form are loaded with. -/
def Bindings.loaded (ss : List NodeSpec) : Bindings :=
  Bindings.bindFlat Document.empty.size (flatAll ss) ∅

/-- The page of loaded descriptions, before it looks for its balloon. -/
def Page.loaded (ss : List NodeSpec) (options : PageOptions) (title : Option String) : Page where
  title
  document := .loaded ss
  bindings := .loaded ss
  balloon := { id := options.balloonId, cssClass := options.balloonClass, nudge := options.nudge }
  options

variable {spec : PageSpec} {p : Page} {ss : List NodeSpec}

theorem PageSpec.build_eq (h : ∀ x ∈ flatAll spec.body, x.Holds) :
    spec.build = .ok (Page.ofDocument (.loaded (NodeSpec.normalAll spec.body))
      (.loaded (NodeSpec.normalAll spec.body)) spec.options spec.title) := by
  have hb := NodeSpec.buildAllBelow_eq spec.body ∅ Document.body (t := .body)
    wellFormed_empty rfl rfl h
  rw [PageSpec.build]
  exact congrArg (fun r => r >>= fun b : Building => pure (Page.ofDocument b.document.relayout
    b.bindings spec.options spec.title)) hb.1

/-- A page loads only if every described node can be built. -/
theorem PageSpec.of_build_ok (h : spec.build = .ok p) :
    (∀ x ∈ flatAll spec.body, x.Holds) ∧
      p = Page.ofDocument (.loaded (NodeSpec.normalAll spec.body))
        (.loaded (NodeSpec.normalAll spec.body)) spec.options spec.title := by
  have hholds : ∀ x ∈ flatAll spec.body, x.Holds := by
    rw [PageSpec.build] at h
    cases hb : NodeSpec.buildAllBelow Document.body {} spec.body with
    | error e => rw [hb] at h; cases h
    | ok b =>
      exact (NodeSpec.holds_of_buildAllBelow (t := .body) wellFormed_empty rfl hb).2
  rw [PageSpec.build_eq hholds] at h
  exact ⟨hholds, (Except.ok.inj h).symm⟩

theorem Document.size_empty : Document.empty.size = 2 := rfl

theorem Document.size_loaded (ss : List NodeSpec) :
    (Document.loaded ss).size = 2 + (flatAll ss).length := by
  rw [Document.loaded, size_relayout, graftLast, size_graft, Document.size_empty]

theorem Document.face?_loaded_new (ss : List NodeSpec) (i : Nat) :
    (Document.loaded ss).face? (2 + i) = (flatAll ss)[i]?.map NodeSpec.face := by
  rw [loaded, face?_relayout]
  exact face?_graft_new Document.empty body _ ss i

theorem Document.children_loaded_body (ss : List NodeSpec) :
    (Document.loaded ss).children body = places 2 ss := by
  rw [loaded, children_relayout, children_graftLast (by decide)]
  rfl

/-- A loaded document is framed. -/
theorem Document.framed_loaded (h : ∀ x ∈ flatAll ss, x.Holds) :
    (Document.loaded (NodeSpec.normalAll ss)).Framed := by
  have hb := NodeSpec.buildAllBelow_eq ss ∅ body (t := .body)
    wellFormed_empty rfl rfl h
  constructor
  case wellFormed => exact hb.2.relayout
  case bare =>
    intro n x hx ht
    rcases Document.old_or_new Document.empty n with hn | ⟨i, rfl⟩
    · rw [loaded, face?_relayout, graftLast, face?_graft_old hn] at hx
      rcases n with _ | _ | n
      · cases hx; rfl
      · cases hx; rfl
      · exact absurd hn (Nat.not_lt_of_le (Nat.le_add_left 2 n))
    · rw [size_empty, face?_loaded_new] at hx
      obtain ⟨s, hs, rfl⟩ := Option.map_eq_some_iff.mp hx
      have hn := NodeSpec.isNormal_normalAll ss s (List.mem_of_getElem? hs)
      have htext : s.tag ≠ .text := ht
      rw [IsNormal, if_neg htext] at hn
      rw [NodeSpec.face, hn]; rfl
  case root_face => rw [loaded, face?_relayout, graftLast, face?_graft_old (by decide)]; rfl
  case body_face => rw [loaded, face?_relayout, graftLast, face?_graft_old (by decide)]; rfl
  case children_root =>
    rw [loaded, children_relayout, graftLast, children_graft_old (by decide), if_neg (by decide)]
    rfl
  case reports => rfl

/-- A loaded node has an attribute exactly if an element was loaded there with it. -/
theorem Document.attribute?_loaded_iff (h : ∀ x ∈ flatAll ss, x.Holds) {k v : String} (n : NodeId) :
    (Document.loaded (NodeSpec.normalAll ss)).attribute? n k = some v ↔
      ∃ i s, n = 2 + i ∧ (flatAll (NodeSpec.normalAll ss))[i]? = some s ∧ s.tag ≠ .text ∧
        s.attributes.get? k = some v := by
  have hframed := framed_loaded h
  rw [attribute?_eq_face]
  match n with
  | 0 =>
    rw [show (Document.loaded _).face? 0 = _ from hframed.root_face]
    exact ⟨nofun, fun ⟨i, _, hi, _⟩ => by rw [Nat.add_comm] at hi; cases hi⟩
  | 1 =>
    rw [show (Document.loaded _).face? 1 = _ from hframed.body_face]
    exact ⟨nofun, fun ⟨i, _, hi, _⟩ => by rw [Nat.add_comm] at hi; cases hi⟩
  | i + 2 =>
    rw [Nat.add_comm i 2, face?_loaded_new]
    refine ⟨fun hv => ?_, fun ⟨j, s, hj, hs, _, hv⟩ => ?_⟩
    · cases hs : (flatAll (NodeSpec.normalAll ss))[i]? with
      | none => rw [hs] at hv; cases hv
      | some s =>
        rw [hs] at hv
        refine ⟨i, s, rfl, hs, fun htext => ?_, hv⟩
        have hnormal := NodeSpec.isNormal_normalAll ss s (List.mem_of_getElem? hs)
        rw [NodeSpec.IsNormal, if_pos htext] at hnormal
        rw [Option.map_some, Option.bind_some, NodeSpec.face, hnormal.1] at hv
        cases hv
    · rw [Nat.add_left_cancel hj, hs]
      exact hv

/-- A loaded node carries no attribute that no described element has. -/
theorem Document.attribute?_loaded (h : ∀ x ∈ flatAll ss, x.Holds) {k v : String}
    (hs : ∀ x ∈ flatAll ss, x.tag ≠ .text → x.attributes.get? k ≠ some v) (n : NodeId) :
    (Document.loaded (NodeSpec.normalAll ss)).attribute? n k ≠ some v := fun hn => by
  obtain ⟨i, s, -, hi, htext, hv⟩ := (attribute?_loaded_iff h n).mp hn
  obtain ⟨u, hu, hutext, -, hsame, -⟩ :=
    NodeSpec.exists_described htext (List.mem_of_getElem? hi)
  exact hs u hu hutext (hsame ▸ hv)

theorem Bindings.ofNode_loaded_of_lt {n : NodeId} (h : n < 2) :
    (Bindings.loaded ss).ofNode n = [] :=
  ofNode_bindFlat_of_lt h

theorem Bindings.ofNode_loaded_of_le {n : NodeId} (h : 2 + (flatAll ss).length ≤ n) :
    (Bindings.loaded ss).ofNode n = [] :=
  ofNode_bindFlat_of_le h

namespace Page

/-- A page whose loaded nodes are as loaded has the description that was loaded. -/
theorem snapshot_body_of_loaded (h : WellFormed p.document) (hbindings : p.bindings = .loaded ss)
    (hface : ∀ n < (Document.loaded ss).size, p.document.face? n = (Document.loaded ss).face? n)
    (hchildren : ∀ n < (Document.loaded ss).size,
      p.document.children n = (Document.loaded ss).children n)
    (hs : ∀ t ∈ flatAll ss, t.IsNormal) : p.snapshot.body = ss := by
  have hsize := Document.size_loaded ss
  have hshows : p.Shows 2 (nodesAll body 2 ss) (flatAll ss) := by
    refine ⟨fun i x hx => ?_, fun i s hs => ?_⟩
    · have hi := (List.getElem?_eq_some_iff.mp hx).1
      rw [NodeSpec.length_nodesAll] at hi
      have hlt : 2 + i < (Document.loaded ss).size := by rw [hsize]; exact Nat.add_lt_add_left hi 2
      have hnode : (Document.empty.graftLast body ss).node? (2 + i) = some x :=
        (node?_graft_new Document.empty body _ ss i).trans hx
      rw [hface _ hlt, hchildren _ hlt, Document.loaded, face?_relayout, children_relayout,
        face?_of_node hnode, children_of_node hnode]
      exact ⟨rfl, rfl⟩
    · rw [hbindings]
      show (Bindings.bindFlat 2 (flatAll ss) ∅).ofNode (2 + i) = s.on.entries
      exact Bindings.ofNode_bindFlat_new (fun _ _ => rfl) hs
  have hbody : body < (Document.loaded ss).size := by
    rw [hsize]; exact Nat.lt_of_lt_of_le (by decide) (Nat.le_add_right 2 _)
  rw [snapshot, hchildren body hbody, Document.children_loaded_body]
  exact snapshotBelow_of_shows_all h ss hs hshows

end Page

end FormPage
