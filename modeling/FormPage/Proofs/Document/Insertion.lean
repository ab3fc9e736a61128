import FormPage.Proofs.Document.Tree

/-!
A tree that is put in front of a child. In document order its nodes come right in front of that
child and all other nodes stay in their order, seen from whatever node the new tree lies below; seen
from any other node nothing has changed, neither the nodes below nor the text that they show.
-/

namespace FormPage.Document

open Relation

variable {d d' : Document} {n m p anchor new : NodeId} {before behind : List NodeId} {α : Type}

/-- Two functions that agree on all but one entry of a list without repetition. -/
theorem flatMap_of_nodup {β : Type} {f g : β → List α} {pre post : List β} {c : β}
    (hnodup : (pre ++ c :: post).Nodup) (hsame : ∀ b ∈ pre ++ c :: post, b ≠ c → f b = g b) :
    (pre ++ c :: post).flatMap f = pre.flatMap g ++ (f c ++ post.flatMap g) := by
  obtain ⟨-, hcons, hdisjoint⟩ := List.nodup_append.mp hnodup
  have hpre : pre.flatMap f = pre.flatMap g := List.flatMap_congr fun b hb =>
    hsame b (List.mem_append_left _ hb) (hdisjoint b hb c List.mem_cons_self)
  have hpost : post.flatMap f = post.flatMap g := List.flatMap_congr fun b hb =>
    hsame b (List.mem_append_right _ (List.mem_cons_of_mem c hb)) fun he =>
      (List.nodup_cons.mp hcons).1 (he ▸ hb)
  rw [List.flatMap_append, List.flatMap_cons, hpre, hpost]

/-- `d'` is `d` with a node, and all that lies below it, in front of the child `anchor` of `p`. -/
structure InsertedBefore (d d' : Document) (p anchor new : NodeId) (before behind : List NodeId) :
    Prop where
  wellFormed : WellFormed d
  wellFormed' : WellFormed d'
  size_le : d.size ≤ d'.size
  siblings : d.children p = before ++ anchor :: behind
  siblings' : d'.children p = before ++ new :: anchor :: behind
  face : d'.face? p = d.face? p
  kept : ∀ n < d.size, n ≠ p → d'.node? n = d.node? n

namespace InsertedBefore

variable (h : InsertedBefore d d' p anchor new before behind)
include h

theorem anchor_mem : anchor ∈ d.children p := by
  rw [h.siblings]
  exact List.mem_append_right _ List.mem_cons_self

theorem container_lt : p < d.size := lt_size_of_child h.anchor_mem

theorem face?_kept (hn : n < d.size) : d'.face? n = d.face? n := by
  by_cases hnp : n = p
  · rw [hnp, h.face]
  · rw [face?, face?, h.kept n hn hnp]

theorem tag?_kept (hn : n < d.size) : d'.tag? n = d.tag? n := by
  rw [tag?_eq_face, tag?_eq_face, h.face?_kept hn]

theorem attribute?_kept (hn : n < d.size) (k : String) : d'.attribute? n k = d.attribute? n k := by
  rw [attribute?_eq_face, attribute?_eq_face, h.face?_kept hn]

theorem sibling_not_above {c : NodeId} (hc : c ∈ d.children p) : ¬ d.AtOrAbove c p := fun hr =>
  h.wellFormed.not_above_self p (TransGen.tail' hr ((h.wellFormed.mem_children p c).mp hc))

/-! ### Seen from outside -/

/-- A fold over a tree without the insertion gives what it gave. -/
theorem fold_of_not_above (step : NodeId → Node → List α → α) (missing : α) (hlt : n < d.size)
    (hn : ¬ d.AtOrAbove n p) : d'.fold step missing n = d.fold step missing n := by
  refine h.wellFormed.fold_congr_below h.wellFormed' hlt fun m x hm hx => ?_
  have hne : m ≠ p := fun he => hn (he ▸ hm)
  exact ⟨x, (h.kept m (lt_size_of_node hx) hne).trans hx, rfl, fun _ => rfl⟩

theorem preorder_of_not_above (hlt : n < d.size) (hn : ¬ d.AtOrAbove n p) :
    d'.preorder n = d.preorder n :=
  h.fold_of_not_above _ _ hlt hn

theorem textContent_of_not_above (hlt : n < d.size) (hn : ¬ d.AtOrAbove n p) :
    d'.textContent n = d.textContent n := by
  rw [textContent, textContent, h.fold_of_not_above _ _ hlt hn]

theorem descendants_of_not_above (hlt : n < d.size) (hn : ¬ d.AtOrAbove n p) :
    d'.descendants n = d.descendants n := by
  have hsame := h.preorder_of_not_above hlt hn
  rw [h.wellFormed.preorder_eq_cons hlt,
    h.wellFormed'.preorder_eq_cons (Nat.lt_of_lt_of_le hlt h.size_le)] at hsame
  exact (List.cons.inj hsame).2

/-! ### Seen from above -/

/-- Below the node that holds the insertion, the new nodes come right in front of the child. -/
theorem descendants_container : ∃ earlier later, d.descendants p = earlier ++ anchor :: later ∧
    d'.descendants p = earlier ++ d'.preorder new ++ anchor :: later := by
  have hold : ∀ c ∈ d.children p, d'.preorder c = d.preorder c := fun c hc =>
    h.preorder_of_not_above (h.wellFormed.child_lt p c hc) (h.sibling_not_above hc)
  rw [h.siblings] at hold
  have hbefore : before.flatMap d'.preorder = before.flatMap d.preorder :=
    List.flatMap_congr fun c hc => hold c (List.mem_append_left _ hc)
  have hbehind : behind.flatMap d'.preorder = behind.flatMap d.preorder :=
    List.flatMap_congr fun c hc => hold c (List.mem_append_right _ (List.mem_cons_of_mem _ hc))
  have hanchor := h.wellFormed.preorder_eq_cons (h.wellFormed.child_lt p anchor h.anchor_mem)
  refine ⟨before.flatMap d.preorder, d.descendants anchor ++ behind.flatMap d.preorder, ?_, ?_⟩
  · rw [h.wellFormed.descendants_eq, h.siblings, List.flatMap_append, List.flatMap_cons, hanchor]
    rfl
  · rw [h.wellFormed'.descendants_eq, h.siblings', List.flatMap_append, List.flatMap_cons,
      List.flatMap_cons, hbefore, hbehind,
      hold anchor (List.mem_append_right _ List.mem_cons_self), hanchor, List.append_assoc]
    rfl

/-- Seen from any node above the insertion, the new nodes come right in front of the child, and all
others stay in their order. -/
theorem descendants_of_above (hn : d.AtOrAbove n p) :
    ∃ earlier later, d.descendants n = earlier ++ anchor :: later ∧
      d'.descendants n = earlier ++ d'.preorder new ++ anchor :: later := by
  induction n using h.wellFormed.below_induction with
  | hP n ih =>
    by_cases hnp : n = p
    · subst hnp
      exact h.descendants_container
    -- one child lies above the insertion, and no other one does
    obtain ⟨c, hr, hcn⟩ := (ReflTransGen.cases_tail hn).resolve_left hnp
    have hc := (h.wellFormed.mem_children n c).mpr hcn
    have hclt := h.wellFormed.child_lt n c hc
    have hother : ∀ c' ∈ d.children n, c' ≠ c → d'.preorder c' = d.preorder c' :=
      fun c' hc' hne => by
        refine h.preorder_of_not_above (h.wellFormed.child_lt n c' hc') fun hr' => hne ?_
        have hcn' := (h.wellFormed.mem_children n c').mp hc'
        rcases reaches_total hr hr' with hle | hle
        · exact (h.wellFormed.eq_of_siblings hcn hcn' hle).symm
        · exact h.wellFormed.eq_of_siblings hcn' hcn hle
    obtain ⟨earlier, later, hd, hd'⟩ := ih c hc hr
    obtain ⟨pre, post, hsplit⟩ := List.append_of_mem hc
    have hnodup := h.wellFormed.nodup_children n
    rw [hsplit] at hother hnodup
    have hsame : d'.children n = d.children n := by
      rw [children, children, h.kept n (lt_size_of_child hc) hnp]
    refine ⟨pre.flatMap d.preorder ++ c :: earlier, later ++ post.flatMap d.preorder, ?_, ?_⟩
    · rw [h.wellFormed.descendants_eq, hsplit, flatMap_of_nodup hnodup fun _ _ _ => rfl,
        h.wellFormed.preorder_eq_cons hclt, hd]
      simp only [List.append_assoc, List.cons_append]
    · rw [h.wellFormed'.descendants_eq, hsame, hsplit, flatMap_of_nodup hnodup hother,
        h.wellFormed'.preorder_eq_cons (Nat.lt_of_lt_of_le hclt h.size_le), hd']
      simp only [List.append_assoc, List.cons_append]

/-- A selection among the nodes below that no new node passes is what it was. -/
theorem filter_descendants {P P' : NodeId → Bool} (hnew : ∀ m ∈ d'.preorder new, P' m = false)
    (hold : ∀ m < d.size, P' m = P m) (hn : n < d.size) :
    (d'.descendants n).filter P' = (d.descendants n).filter P := by
  have hkept : ∀ m ∈ d.descendants n, P' m = P m := fun m hm =>
    hold m (h.wellFormed.lt_of_mem_descendants hm)
  by_cases hr : d.AtOrAbove n p
  · obtain ⟨earlier, later, hd, hd'⟩ := h.descendants_of_above hr
    have hnone : (d'.preorder new).filter P' = [] :=
      List.filter_eq_nil_iff.mpr fun m hm => by rw [hnew m hm]; exact Bool.false_ne_true
    rw [← List.filter_congr hkept, hd, hd', List.filter_append, List.filter_append,
      List.filter_append, hnone, List.append_nil]
  · rw [h.descendants_of_not_above hn hr, List.filter_congr hkept]

end InsertedBefore

end FormPage.Document
