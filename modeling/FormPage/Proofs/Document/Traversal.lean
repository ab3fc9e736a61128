import FormPage.Proofs.Document.Reachable
import FormPage.Proofs.Document.Search
import FormPage.Proofs.Document.Tree

/-!
All walks below a node agree. The loop over first children and next siblings ends, whatever node it
starts below, with the nodes that the recursion over the lists of children lists, in the same order
and each once. The text of a node is read in that order, and an id is looked up in it. Main
statement: `traversals_after`.
-/

namespace FormPage.Document

open Relation

variable {d : Document} {n m : NodeId} {ns below below' : List NodeId}

/-- The recursion over lists of children: every node of a list, followed by all below it. -/
inductive InPreorder (d : Document) : List NodeId → List NodeId → Prop
  | nil : InPreorder d [] []
  | cons {n : NodeId} {ns below rest : List NodeId} (hbelow : InPreorder d (d.children n) below)
      (hrest : InPreorder d ns rest) : InPreorder d (n :: ns) (n :: (below ++ rest))

theorem InPreorder.unique (h : InPreorder d ns below) (h' : InPreorder d ns below') :
    below' = below := by
  induction h generalizing below' with
  | nil => cases h'; rfl
  | cons _ _ ihbelow ihrest =>
    cases h' with
    | cons hbelow hrest => rw [ihbelow hbelow, ihrest hrest]

theorem Descends.unique {start : Option NodeId} {stack : List NodeId}
    (h : Descends d start stack below) (h' : Descends d start stack below') : below' = below := by
  induction h generalizing below' with
  | stop => cases h'; rfl
  | enter _ ih => cases h' with
    | enter h' => rw [ih h']
  | leave _ ih => cases h' with
    | leave h' => exact ih h'

/-- A list of siblings, in preorder. -/
theorem WellFormed.inPreorder (h : WellFormed d) (n : NodeId) :
    InPreorder d (d.children n) ((d.children n).flatMap d.preorder) := by
  induction n using h.below_induction with
  | hP n ih =>
    have hlist : ∀ ns ⊆ d.children n, InPreorder d ns (ns.flatMap d.preorder) := by
      intro ns
      induction ns with
      | nil => exact fun _ => .nil
      | cons c ns ihns =>
        intro hns
        have hc := hns List.mem_cons_self
        rw [List.flatMap_cons, h.preorder_of_lt (h.child_lt n c hc)]
        exact .cons (ih c hc) (ihns fun _ hm => hns (List.mem_cons_of_mem c hm))
    exact hlist _ fun _ hm => hm

/-- What lies below a node has another parent than the node. -/
theorem WellFormed.parent?_ne_of_above (h : WellFormed d) (hm : d.Above n m) :
    d.parent? m ≠ d.parent? n := by
  intro hsame
  obtain ⟨p, hp, hr⟩ := TransGen.head'_iff.mp hm
  rw [Step, hsame] at hp
  exact h.not_above_self n (TransGen.head' hp hr)

theorem WellFormed.descendants_of_size_le (h : WellFormed d) (hn : d.size ≤ n) :
    d.descendants n = [] := by
  rw [h.descendants_eq, children, node?_eq_none_iff.mpr hn]
  rfl

theorem WellFormed.nodup_descendants (h : WellFormed d) (n : NodeId) :
    (d.descendants n).Nodup := by
  by_cases hn : n < d.size
  · have hnodup := h.nodup_preorder n
    rw [h.preorder_eq_cons hn] at hnodup
    exact (List.nodup_cons.mp hnodup).2
  · rw [h.descendants_of_size_le (Nat.le_of_not_lt hn)]
    exact List.nodup_nil

/-! ### The text of a node -/

/-- Whether a node is a text. -/
def isText (d : Document) (n : NodeId) : Bool := d.tag? n = some .text

/-- The text of a node is read in preorder. -/
theorem WellFormed.textContent_eq_preorder (h : WellFormed d) (n : NodeId) : d.textContent n =
    String.ofList (((d.preorder n).filter d.isText).flatMap fun m => (d.text m).toList) := by
  rw [textContent]
  congr 1
  induction n using h.below_induction with
  | hP n ih =>
    cases hx : d.node? n with
    | none => rw [preorder_of_size_le (node?_eq_none_iff.mp hx), h.fold_eq, hx]; rfl
    | some x =>
      have htag : d.tag? n = some x.tag := by rw [tag?, hx, Option.map_some]
      rw [h.fold_of_node hx, h.preorder_of_lt (lt_size_of_node hx)]
      by_cases hxt : x.tag = .text
      · -- a text has nothing below it
        have htext : d.text n = x.text := by rw [Document.text, hx]; rfl
        have hself : d.isText n = true := by rw [isText, htag, hxt]; rfl
        rw [if_pos hxt, h.void_empty n x.tag htag (by rw [hxt]; rfl), List.flatMap_nil,
          List.filter_cons_of_pos hself, List.filter_nil, List.flatMap_singleton, htext]
      · have hself : ¬ d.isText n = true := by rw [isText, htag]; simpa using hxt
        rw [if_neg hxt, List.filter_cons_of_neg hself, List.filter_flatMap, List.flatMap_assoc,
          ← List.flatMap_def]
        exact List.flatMap_congr fun c hc => ih c hc

/-- The text of a node is read from the node and then in the order of the loop. -/
theorem WellFormed.textContent_eq (h : WellFormed d) (n : NodeId) : d.textContent n =
    String.join (((n :: d.descendants n).filter d.isText).map d.text) := by
  have hnodes : (d.preorder n).filter d.isText = (n :: d.descendants n).filter d.isText := by
    by_cases hn : n < d.size
    · rw [h.preorder_eq_cons hn]
    · have hsize := Nat.le_of_not_lt hn
      have hself : ¬ d.isText n = true := by rw [isText, tag?, node?_eq_none_iff.mpr hsize]; simp
      rw [preorder_of_size_le hsize, h.descendants_of_size_le hsize,
        List.filter_cons_of_neg hself]
  rw [h.textContent_eq_preorder, hnodes, ← String.toList_inj, String.toList_join,
    List.flatMap_map, String.toList_ofList]

/-! ### All walks -/

/-- The walks below a node: the loop and the recursion end, with the same list. -/
structure Traversed (d : Document) (n : NodeId) : Prop where
  loop : ∀ below, Descends d (d.firstChild? n) [] below ↔ below = d.descendants n
  recursion : ∀ below, InPreorder d (d.children n) below ↔ below = d.descendants n
  once : (d.descendants n).Nodup
  mem_iff : ∀ m, m ∈ d.descendants n ↔ d.Above n m
  not_self : n ∉ d.descendants n
  not_sibling : ∀ m, d.parent? m = d.parent? n → m ∉ d.descendants n
  text : d.textContent n = String.join (((n :: d.descendants n).filter d.isText).map d.text)

theorem WellFormed.traversed (h : WellFormed d) (n : NodeId) : Traversed d n := by
  have hloop := h.descends_preorder n
  have hrecursion := h.inPreorder n
  rw [← h.descendants_eq] at hloop hrecursion
  constructor
  case loop => exact fun below => ⟨hloop.unique, fun he => he ▸ hloop⟩
  case recursion => exact fun below => ⟨hrecursion.unique, fun he => he ▸ hrecursion⟩
  case once => exact h.nodup_descendants n
  case mem_iff => exact fun m => h.mem_descendants
  case not_self => exact fun hn => h.not_above_self n (h.mem_descendants.mp hn)
  case not_sibling =>
    exact fun m hm hbelow => h.parent?_ne_of_above (h.mem_descendants.mp hbelow) hm
  case text => exact h.textContent_eq n

/-- In every document that operations lead to, whatever their arguments, the loop over first
children and next siblings ends below every node, with the recursive preorder of the lists of
children: every node below once, and neither the node itself nor one of its siblings. The text of a
node is that of the text nodes in this order, and by an id the first attached node is found that has
it. -/
theorem traversals_after (ops : List Operation) :
    (∀ n, Traversed (after ops) n) ∧
      ∀ id, First (fun n => (after ops).attribute? n "id" = some id)
          ((after ops).descendants root) ((after ops).elementById? id) ∧
        ∀ n, (after ops).elementById? id = some n → (after ops).Above root n := by
  have h := wellFormed_after ops
  refine ⟨h.traversed, fun id => ⟨first_find? _ _, fun n hn => ?_⟩⟩
  exact h.mem_descendants.mp (List.mem_of_find?_eq_some hn)

end FormPage.Document
