import FormPage.Proofs.Balloon.Showing

/-!
Who carries the reserved id. A document may come with nodes that carry it already; from there on it
is given to the element of the balloon alone, and no node loses it. These are kept by every step.
-/

namespace FormPage.Document

open Balloon

variable {d d' d₀ : Document} {b b₀ : Balloon} {n : NodeId} {spare : NodeId → Prop}

/-- The element of the balloon carries the reserved id, and but for the spare nodes no other node
does. -/
structure Marked (spare : NodeId → Prop) (d : Document) (b : Balloon) : Prop where
  named : ∀ e, b.element? = some e → d.attribute? e "id" = some b.id
  only : ∀ n, d.attribute? n "id" = some b.id → spare n ∨ b.element? = some n

theorem Hosts.element_lt {e : NodeId} (h : d.Hosts b) (he : b.element? = some e) : e < d.size := by
  obtain ⟨parts, hparts, rfl⟩ := Option.map_eq_some_iff.mp he
  exact (h.carries parts hparts).element_lt h.framed

theorem Marked.of_extends (h : Marked spare d b) (hd : d.Hosts b) (he : Extends b d d') :
    Marked spare d' b where
  named e hb := by rw [he.id e (hd.element_lt hb), h.named e hb]
  only n hn := by
    by_cases hlt : n < d.size
    · rw [he.id n hlt] at hn
      exact h.only n hn
    · exact absurd hn (he.id_new n (Nat.le_of_not_lt hlt))

theorem attribute?_cleared (h : WellFormed d) (region n : NodeId) (k : String) :
    (Balloon.cleared d region).attribute? n k = d.attribute? n k := by
  rw [attribute?_eq_face, attribute?_eq_face, face?_cleared h]

theorem Marked.cleared (h : Marked spare d b) (hd : WellFormed d) (region : NodeId) :
    Marked spare (Balloon.cleared d region) b where
  named e he := by rw [attribute?_cleared hd, h.named e he]
  only n hn := h.only n (attribute?_cleared hd region n "id" ▸ hn)

/-- Of the nodes of a built balloon only the topmost carries the id. -/
theorem attribute?_built (d : Document) (id cssClass : String) (i : Nat) :
    (d.graftLast body [elementSpec id cssClass]).attribute? (d.size + i) "id" =
      if i = 0 then some id else none := by
  rw [attribute?_eq_face, graftLast, face?_graft_new, elementSpec_flat]
  cases i with
  | zero =>
    show (((∅ : OrderedMap String String).insert "id" id).insert "class" cssClass).get? "id" = _
    rw [OrderedMap.get?_insert, if_neg (by decide), OrderedMap.get?_insert, if_pos rfl, if_pos rfl]
  | succ i =>
    -- neither the region nor an edge carries an id
    have hparts : ∀ s ∈ [bandSpec "top", regionSpec, bandSpec "bottom"],
        s.attributes.get? "id" = none := by decide
    rw [List.getElem?_cons_succ, if_neg (Nat.succ_ne_zero i)]
    cases hs : [bandSpec "top", regionSpec, bandSpec "bottom"][i]? with
    | none => rfl
    | some s => exact hparts s (List.mem_of_getElem? hs)

theorem Marked.build (h : Marked spare d b) (hparts : b.parts = none) :
    Marked spare (d.graftLast body [elementSpec b.id b.cssClass])
      { b with parts := some ⟨d.size, d.size + 2⟩ } where
  named e he := by
    cases he
    exact attribute?_built d b.id b.cssClass 0
  only n hn := by
    rcases old_or_new d n with hlt | ⟨i, rfl⟩
    · rw [graftLast, attribute?_graft_old hlt] at hn
      rcases h.only n hn with hn | hn
      · exact .inl hn
      · rw [element?, hparts] at hn
        cases hn
    · rw [attribute?_built] at hn
      split at hn
      · rename_i hi
        rw [hi]
        exact .inr rfl
      · cases hn

/-- Wherever steps lead to, the id is the balloon's. -/
theorem Leads.marked (h : Leads d₀ b₀ d b) (hm : Marked spare d₀ b₀) : Marked spare d b := by
  induction h with
  | refl _ => exact hm
  | extend h he _ ih => exact ih.of_extends h.settled.hosts he
  | clear h _ ih => exact ih.cleared h.settled.hosts.framed.wellFormed _
  | build _ hparts ih => exact ih.build hparts

/-- Steps remove no node. -/
theorem Leads.size_le (h : Leads d₀ b₀ d b) : d₀.size ≤ d.size := by
  induction h with
  | refl _ => exact Nat.le_refl _
  | extend _ he _ ih => exact Nat.le_trans ih he.size
  | clear h _ ih => rwa [size_cleared h.settled.hosts.framed.wellFormed]
  | build _ _ ih =>
    rw [graftLast, size_graft]
    exact Nat.le_trans ih (Nat.le_add_right _ _)

/-- Steps change the id of no older node. -/
theorem Leads.id_eq (h : Leads d₀ b₀ d b) (hn : n < d₀.size) :
    d.attribute? n "id" = d₀.attribute? n "id" := by
  induction h with
  | refl _ => rfl
  | extend h he _ ih => rw [he.id n (Nat.lt_of_lt_of_le hn h.size_le), ih]
  | clear h _ ih => rw [attribute?_cleared h.settled.hosts.framed.wellFormed, ih]
  | build h _ ih => rw [graftLast, attribute?_graft_old (Nat.lt_of_lt_of_le hn h.size_le), ih]

end FormPage.Document
