import FormPage.Proofs.Document.Operations

/-!
The calls of a document once more, with every access to the array of nodes checked: where the
library looks up a node that it takes to exist, the checked form stops with `none` if the index
names none. On a well-formed document no checked form ever stops, whatever indices the caller
passes, and it gives what the unchecked form gives.
-/

namespace FormPage.Document

variable {d : Document} {n p c : NodeId}

/-! ### Checked forms -/

/-- Changes a node that has to exist. -/
def checkedUpdate (d : Document) (n : NodeId) (f : Node → Node) : Option Document :=
  if n < d.size then some (d.update n f) else none

/-- The nodes met from `start` on by following `next`; each of them has to exist. -/
def checkedWalk (d : Document) (next : Node → Option NodeId) :
    Nat → Option NodeId → Option (List (NodeId × Node))
  | 0, _ => some []
  | _ + 1, none => some []
  | limit + 1, some n => do
    let x ← d.node? n
    let rest ← checkedWalk d next limit (next x)
    return (n, x) :: rest

/-- The neighbour of a node among the children of its parent, which has to exist. -/
def checkedSibling (neighbour : NodeId → List NodeId → Option NodeId) (d : Document) (n : NodeId) :
    Option (Option NodeId) :=
  match d.parent? n with
  | none => some none
  | some p => do
    let x ← d.node? p
    return neighbour n x.children

/-- The text of a node and of all below it, all of which have to exist. -/
def checkedTextFrom (d : Document) : Nat → NodeId → Option (List Char)
  | 0, _ => some []
  | limit + 1, n => do
    let x ← d.node? n
    if x.tag = .text then return x.text.toList
    let below ← x.children.mapM (checkedTextFrom d limit)
    return below.flatten

/-- The text shown by a node, and nothing for an index that names none. -/
def checkedTextContent (d : Document) (n : NodeId) : Option String :=
  if d.contains n then (checkedTextFrom d (d.size + 1) n).map String.ofList else some ""

/-- Why `child` may not be placed below `parent`; everything above the parent has to exist. -/
def checkedPlacement (d : Document) (parent child : NodeId) : Option (Option TreeError) :=
  match d.tag? parent with
  | none => some (some (.unknownNode parent))
  | some tag =>
    if !d.contains child then some (some (.unknownNode child))
    else if tag.isVoid then some (some (.notAContainer parent))
    else if child = root then some (some (.cycle child))
    else do
      let up ← d.checkedWalk (·.parent) (d.size + 1) (some parent)
      return if child ∈ up.map Prod.fst then some (.cycle child) else none

/-- Takes a node out of its parent; both have to exist. -/
def checkedDetach (d : Document) (child : NodeId) : Option Document := do
  let x ← d.node? child
  match x.parent with
  | none => return d
  | some p =>
    let d ← d.checkedUpdate child fun node => { node with parent := none }
    d.checkedUpdate p fun node => { node with children := node.children.filter (· ≠ child) }

/-- Links a node to a parent; both have to exist. -/
def checkedLink (d : Document) (parent child : NodeId) (place : List NodeId → List NodeId) :
    Option Document := do
  let d ← d.checkedUpdate child fun node => { node with parent := some parent }
  d.checkedUpdate parent fun node => { node with children := place node.children }

/-- The positioned ancestor of a node; the node and all above it have to exist. -/
def checkedLayoutParent (d : Document) (n : NodeId) : Option (Option NodeId) := do
  let x ← d.node? n
  if x.tag = .text || n = root || n = body then return none
  let up ← d.checkedWalk (·.parent) (d.size + 1) (some n)
  let shown := (up.map Prod.fst).contains root &&
    (up.takeWhile (·.1 ≠ root)).all fun e => !e.2.style.isHidden
  if !shown then return none
  let above ← d.checkedWalk (·.parent) (d.size + 1) x.parent
  return (above.find? fun e => e.2.style.position.isPositioned || e.2.tag = .body ||
    (!x.style.position.isPositioned && e.2.tag.isTableBox)).map Prod.fst

/-- Sets the link of one node after the other; each has to exist. -/
def checkedSetLinks (links : List (NodeId × Option NodeId)) (d : Document) : Option Document :=
  links.foldlM (fun d e => d.checkedUpdate e.1 fun x => { x with offsetParent := e.2 }) d

/-- Recomputes the link of every node. -/
def checkedRelayout (d : Document) : Option Document := do
  let links ← (List.range d.size).mapM fun n => (d.checkedLayoutParent n).map fun a => (n, a)
  checkedSetLinks links d

/-- A call with every access checked. -/
def Call.checked : Call → Document → Option Document
  | appendChild p c, d => do
    match ← d.checkedPlacement p c with
    | some _ => return d
    | none => (← d.checkedDetach c).checkedLink p c (· ++ [c])
  | insertBefore p c r, d => do
    match ← d.checkedPlacement p c with
    | some _ => return d
    | none =>
      if d.parent? r ≠ some p || c = r then return d
      let detached ← d.checkedDetach c
      let x ← detached.node? p
      if r ∈ x.children then detached.checkedLink p c (insertAhead r c) else return detached
  | removeChild p c, d => if d.parent? c ≠ some p then some d else d.checkedDetach c
  | setOffsetParent n a, d =>
    if !d.contains n then some d
    else
      match a with
      | none => d.checkedUpdate n fun x => { x with offsetParent := none }
      | some a =>
        if !d.contains a then some d
        else do
          let chain ← d.checkedWalk (·.offsetParent) (d.size + 1) (some a)
          if n ∈ chain.map Prod.fst then return d
          d.checkedUpdate n fun x => { x with offsetParent := some a }
  | relayout, d => d.checkedRelayout
  -- the remaining calls look a node up only where it may be missing
  | k, d => some (k.run d)

/-! ### No checked form stops -/

theorem checkedUpdate_eq (h : n < d.size) (f : Node → Node) :
    d.checkedUpdate n f = some (d.update n f) := if_pos h

theorem mapM_of_forall {α β : Type} {f : α → Option β} {g : α → β} :
    ∀ {l : List α}, (∀ a ∈ l, f a = some (g a)) → l.mapM f = some (l.map g)
  | [], _ => rfl
  | a :: l, h => by
    rw [List.mapM_cons, h a List.mem_cons_self,
      mapM_of_forall fun b hb => h b (List.mem_cons_of_mem a hb)]
    rfl

theorem checkedWalk_eq (next : Node → Option NodeId)
    (hnext : ∀ n x m, d.node? n = some x → next x = some m → m < d.size) :
    ∀ (k : Nat) (s : Option NodeId), (∀ m, s = some m → m < d.size) →
      ∃ l, d.checkedWalk next k s = some l ∧
        l.map Prod.fst = follow (fun n => (d.node? n).bind next) k s ∧
        ∀ e ∈ l, d.node? e.1 = some e.2
  | 0, _, _ => ⟨[], rfl, rfl, fun _ he => absurd he List.not_mem_nil⟩
  | _ + 1, none, _ => ⟨[], rfl, rfl, fun _ he => absurd he List.not_mem_nil⟩
  | k + 1, some n, hs => by
    obtain ⟨x, hx⟩ := exists_node (hs n rfl)
    obtain ⟨l, hl, hfst, hmem⟩ := checkedWalk_eq next hnext k (next x) fun m hm => hnext n x m hx hm
    refine ⟨(n, x) :: l, ?_, ?_, ?_⟩
    · simp [checkedWalk, hx, hl]
    · simp [follow, hx, hfst]
    · rintro e he
      rcases List.mem_cons.mp he with rfl | he
      · exact hx
      · exact hmem e he

namespace WellFormed

/-- Everything above a node, with the nodes themselves. -/
theorem checkedWalk_parent (h : WellFormed d) {s : Option NodeId}
    (hs : ∀ m, s = some m → m < d.size) :
    ∃ l, d.checkedWalk (·.parent) (d.size + 1) s = some l ∧
      l.map Prod.fst = d.path d.parent? s ∧ ∀ e ∈ l, d.node? e.1 = some e.2 :=
  checkedWalk_eq (·.parent)
    (fun n _ m hx hm => h.parent_lt n m ((parent?_of_node hx).trans hm)) _ s hs

theorem checkedSibling_eq (h : WellFormed d) (neighbour : NodeId → List NodeId → Option NodeId)
    (n : NodeId) : checkedSibling neighbour d n =
      some ((d.parent? n).bind fun p => neighbour n (d.children p)) := by
  rw [checkedSibling]
  cases hp : d.parent? n with
  | none => rfl
  | some p =>
    obtain ⟨x, hx⟩ := exists_node (h.parent_lt n p hp)
    simp [hx, children_of_node hx]

theorem checkedTextFrom_eq (h : WellFormed d) : ∀ (k : Nat) {n : NodeId}, n < d.size →
    checkedTextFrom d k n = some (d.foldFrom
      (fun _ x below => if x.tag = .text then x.text.toList else below.flatten) [] k n)
  | 0, _, _ => rfl
  | k + 1, n, hn => by
    obtain ⟨x, hx⟩ := exists_node hn
    have hbelow : x.children.mapM (checkedTextFrom d k) = some (x.children.map (d.foldFrom
        (fun _ x below => if x.tag = .text then x.text.toList else below.flatten) [] k)) :=
      mapM_of_forall fun c hc =>
        checkedTextFrom_eq h k (h.child_lt n c (by rwa [children_of_node hx]))
    rw [checkedTextFrom, foldFrom, hx]
    by_cases ht : x.tag = .text <;> simp [ht, hbelow]

theorem checkedTextContent_eq (h : WellFormed d) (n : NodeId) :
    d.checkedTextContent n = some (d.textContent n) := by
  rw [checkedTextContent]
  split
  · rename_i hn
    rw [h.checkedTextFrom_eq _ (contains_iff.mp hn)]; rfl
  · rename_i hn
    have hnone := node?_eq_none_iff.mpr (Nat.le_of_not_lt fun h' => hn (contains_iff.mpr h'))
    rw [textContent, fold, foldFrom, hnone]

theorem checkedPlacement_eq (h : WellFormed d) (p c : NodeId) :
    d.checkedPlacement p c = some (d.placementError? p c) := by
  rw [checkedPlacement, placementError?]
  cases ht : d.tag? p with
  | none => rfl
  | some t =>
    obtain ⟨l, hl, hfst, -⟩ := h.checkedWalk_parent (s := some p) fun m hm => by
      cases hm; exact lt_size_of_tag ht
    simp only [hl, inclusiveAncestors]
    split
    · rfl
    · split
      · rfl
      · split
        · rfl
        · by_cases hm : c ∈ d.path d.parent? (some p) <;> simp [hfst, hm]

theorem checkedDetach_eq (h : WellFormed d) (hc : c < d.size) :
    d.checkedDetach c = some (d.detach c) := by
  obtain ⟨x, hx⟩ := exists_node hc
  rw [checkedDetach, Document.detach, parent?_of_node hx, hx]
  cases hp : x.parent with
  | none => simp [hp]
  | some p =>
    have hlt : p < d.size := h.parent_lt c p ((parent?_of_node hx).trans hp)
    simp [hp, checkedUpdate, hc, hlt]

theorem checkedLink_eq (hp : p < d.size) (hc : c < d.size) (place : List NodeId → List NodeId) :
    d.checkedLink p c place = some (d.link p c place) := by
  simp [checkedLink, checkedUpdate, Document.link, hp, hc]

theorem isRendered_eq {l : List (NodeId × Node)} (hfst : l.map Prod.fst = d.inclusiveAncestors n)
    (hmem : ∀ e ∈ l, d.node? e.1 = some e.2) :
    d.isRendered n = ((l.map Prod.fst).contains root &&
      (l.takeWhile (·.1 ≠ root)).all fun e => !e.2.style.isHidden) := by
  rw [isRendered, ← hfst, List.takeWhile_map, List.all_map]
  congr 1
  rw [Bool.eq_iff_iff, List.all_eq_true, List.all_eq_true]
  refine forall₂_congr fun e he => ?_
  have hnode := hmem e (List.takeWhile_subset _ he)
  simp [style?, hnode]

theorem find?_measures (static : Bool) : ∀ {l : List (NodeId × Node)},
    (∀ e ∈ l, d.node? e.1 = some e.2) →
    (l.find? fun e => e.2.style.position.isPositioned || e.2.tag = .body ||
      (static && e.2.tag.isTableBox)).map Prod.fst = (l.map Prod.fst).find? (d.measures static)
  | [], _ => rfl
  | e :: l, hmem => by
    have ih := find?_measures static fun e' he => hmem e' (List.mem_cons_of_mem e he)
    have hnode := hmem e List.mem_cons_self
    rw [List.map_cons, List.find?_cons, List.find?_cons, ← ih]
    simp only [measures, hnode]
    split <;> rfl

theorem checkedLayoutParent_eq (h : WellFormed d) (hn : n < d.size) :
    d.checkedLayoutParent n = some (d.layoutParent? n) := by
  obtain ⟨x, hx⟩ := exists_node hn
  obtain ⟨up, hup, hupfst, hupmem⟩ := h.checkedWalk_parent (s := some n) fun m hm => by
    cases hm; exact hn
  obtain ⟨above, habove, hafst, hamem⟩ := h.checkedWalk_parent (s := x.parent) fun m hm =>
    h.parent_lt n m ((parent?_of_node hx).trans hm)
  have hanc : d.ancestors n = above.map Prod.fst := by
    rw [ancestors, parent?_of_node hx, hafst]
  rw [checkedLayoutParent, layoutParent?, hx]
  simp only [Option.bind_eq_bind, Option.bind_some]
  rw [isRendered_eq hupfst hupmem, hanc, ← find?_measures _ hamem, hup, habove]
  simp only [Option.bind_some]
  by_cases h1 : x.tag = .text ∨ n = root ∨ n = body
  · rcases h1 with h1 | h1 | h1 <;> simp [h1]
  · obtain ⟨h1, h2, h3⟩ : x.tag ≠ .text ∧ n ≠ root ∧ n ≠ body := by simpa using h1
    simp only [h1, h2, h3, decide_false, Bool.or_self, Bool.false_or, Bool.false_eq_true, if_false]
    split <;> rfl

end WellFormed

/-- Two documents with the same nodes and the same switch are equal. -/
theorem eq_of_node? {d d' : Document} (hnode : ∀ m, d.node? m = d'.node? m)
    (hreports : d.reportsOffsets = d'.reportsOffsets) : d = d' := by
  cases d; cases d'
  congr 1
  exact Array.ext_getElem? hnode

theorem checkedSetLinks_eq (g : NodeId → Option NodeId) : ∀ (l : List NodeId) (d : Document),
    (∀ n ∈ l, n < d.size) → ∃ d', checkedSetLinks (l.map fun n => (n, g n)) d = some d' ∧
      d'.reportsOffsets = d.reportsOffsets ∧ ∀ m, d'.node? m =
        (d.node? m).map fun x => if m ∈ l then { x with offsetParent := g m } else x
  | [], d, _ => ⟨d, rfl, rfl, fun m => by simp⟩
  | n :: l, d, hl => by
    obtain ⟨d', hd', hreports, hnode⟩ := checkedSetLinks_eq g l
      (d.update n fun x => { x with offsetParent := g n }) fun k hk => by
        rw [size_update]; exact hl k (List.mem_cons_of_mem n hk)
    refine ⟨d', ?_, hreports, fun m => ?_⟩
    · rw [checkedSetLinks, List.map_cons, List.foldlM_cons,
        checkedUpdate_eq (hl n List.mem_cons_self)]
      exact hd'
    · rw [hnode, node?_update]
      by_cases hm : n = m
      · subst hm
        rw [if_pos rfl, Option.map_map]
        congr 1
        funext x
        by_cases hnl : n ∈ l <;> simp [hnl]
      · simp [if_neg hm, Ne.symm hm]

namespace WellFormed

theorem checkedRelayout_eq (h : WellFormed d) : d.checkedRelayout = some d.relayout := by
  have hlinks : (List.range d.size).mapM (fun n => (d.checkedLayoutParent n).map fun a => (n, a)) =
      some ((List.range d.size).map fun n => (n, d.layoutParent? n)) :=
    mapM_of_forall fun n hn => by rw [h.checkedLayoutParent_eq (List.mem_range.mp hn)]; rfl
  obtain ⟨d', hd', hreports, hnode⟩ := checkedSetLinks_eq d.layoutParent? (List.range d.size) d
    fun n hn => List.mem_range.mp hn
  rw [checkedRelayout, hlinks, Option.bind_eq_bind, Option.bind_some, hd', Option.some.injEq]
  refine eq_of_node? (fun m => ?_) hreports
  rw [hnode, node?_relayout]
  by_cases hm : m < d.size
  · simp [List.mem_range, hm]
  · rw [node?_eq_none_iff.mpr (Nat.le_of_not_lt hm)]; rfl

/-- On a well-formed document no access of a call leaves the array, whatever it is called with. -/
theorem checked_eq (h : WellFormed d) (k : Call) : k.checked d = some (k.run d) := by
  cases k with
  | appendChild p c =>
    simp only [Call.checked, Call.run, edit, Document.appendChild, ExceptT.run, StateT.run,
      h.checkedPlacement_eq, Option.bind_eq_bind, Option.bind_some]
    cases hp : d.placementError? p c with
    | some e => rfl
    | none =>
      obtain ⟨t, ht, hc, -⟩ := placementError?_eq_none.mp hp
      simp only [h.checkedDetach_eq hc, Option.bind_some]
      exact checkedLink_eq (by rw [size_detach]; exact lt_size_of_tag ht) (by rwa [size_detach]) _
  | insertBefore p c r =>
    simp only [Call.checked, Call.run, edit, Document.insertBefore, ExceptT.run, StateT.run,
      h.checkedPlacement_eq, Option.bind_eq_bind, Option.bind_some]
    cases hp : d.placementError? p c with
    | some e => rfl
    | none =>
      obtain ⟨t, ht, hc, -⟩ := placementError?_eq_none.mp hp
      have hplt : p < (d.detach c).size := by rw [size_detach]; exact lt_size_of_tag ht
      have hclt : c < (d.detach c).size := by rwa [size_detach]
      by_cases hr : d.parent? r = some p
      · by_cases hcr : c = r
        · simp [hr, hcr]
        · obtain ⟨x, hx⟩ := exists_node hplt
          simp only [hr, hcr, h.checkedDetach_eq hc, children_of_node hx]
          by_cases hm : r ∈ x.children <;> simp [hx, hm, checkedLink_eq hplt hclt]
      · simp [hr]
  | removeChild p c =>
    simp only [Call.checked, Call.run, edit, Document.removeChild, ExceptT.run, StateT.run]
    split
    · rfl
    · rename_i hp
      exact h.checkedDetach_eq (lt_size_of_parent (Decidable.not_not.mp hp))
  | setOffsetParent n a =>
    simp only [Call.checked, Call.run, edit, Document.setOffsetParent, ExceptT.run, StateT.run]
    by_cases hn : n < d.size
    · have hn' : d.contains n = true := contains_iff.mpr hn
      cases a with
      | none => simp [hn', checkedUpdate_eq hn]
      | some a =>
        by_cases ha : a < d.size
        · have ha' : d.contains a = true := contains_iff.mpr ha
          obtain ⟨l, hl, hfst, -⟩ := checkedWalk_eq (·.offsetParent)
            (fun k x m hx hm => h.link_lt k m ((offsetLink?_of_node hx).trans hm)) (d.size + 1)
            (some a) fun m hm => by cases hm; exact ha
          have hchain : l.map Prod.fst = d.offsetLinks a := hfst
          by_cases hm : n ∈ d.offsetLinks a <;>
            simp [hn', ha', hl, hchain, hm, checkedUpdate_eq hn]
        · have ha' : d.contains a = false := by simpa [contains] using ha
          simp [hn', ha']
    · have hn' : d.contains n = false := by simpa [contains] using hn
      simp [hn']
  | relayout => exact h.checkedRelayout_eq
  | _ => rfl

end WellFormed

end FormPage.Document
