import FormPage.Proofs.Document.Reachable

/-!
What moving a node does. The three edits of the tree, each with any arguments, succeed exactly where
they are allowed and then change the place of one node: its parent, the children of its former
parent and those of its new one. Where they are not allowed they change nothing, also not the part
that they had begun with: the reference of an insertion is found again after the node was taken out,
since parents and children agree. Main statement: `moves_of_reachable`.
-/

namespace FormPage.Document

/-- Where a node may be put: below a node that exists, holds children and does not lie below it. -/
structure Receives (d : Document) (p c : NodeId) : Prop where
  parent_exists : p < d.size
  child_exists : c < d.size
  not_input : d.tag? p ≠ some .input
  not_text : d.tag? p ≠ some .text
  not_root : c ≠ root
  not_above : ¬ d.AtOrAbove c p

/-- `c` has gone to the parent `dest`, or out of the tree, and all else is as it was: only the
children of `dest` are not spoken of. -/
structure Moved (d : Document) (c : NodeId) (dest : Option NodeId) (d' : Document) : Prop where
  size : d'.size = d.size
  reportsOffsets : d'.reportsOffsets = d.reportsOffsets
  face : ∀ n, d'.face? n = d.face? n
  offsetLink : ∀ n, d'.offsetLink? n = d.offsetLink? n
  parent : d'.parent? c = dest
  parent_other : ∀ n, n ≠ c → d'.parent? n = d.parent? n
  children_former : ∀ q, d.parent? c = some q → dest ≠ some q →
    d'.children q = (d.children q).filter (· ≠ c)
  children_other : ∀ q, d.parent? c ≠ some q → dest ≠ some q → d'.children q = d.children q

/-- An edit succeeds exactly where it is allowed, with an effect, and else changes nothing. -/
def AllOrNothing (d : Document) (e : Edit Unit) (allowed : Prop) (effect : Document → Prop) :
    Prop :=
  (allowed ∧ ∃ d', d.edit e = (.ok (), d') ∧ effect d') ∨
    (¬ allowed ∧ ∃ cause, d.edit e = (.error cause, d))

variable {d : Document} {p c r : NodeId} {place : List NodeId → List NodeId}

@[simp] theorem reportsOffsets_detach (d : Document) (c : NodeId) :
    (d.detach c).reportsOffsets = d.reportsOffsets := by
  rw [detach]
  split <;> rfl

@[simp] theorem reportsOffsets_link (d : Document) (p c : NodeId)
    (place : List NodeId → List NodeId) : (d.link p c place).reportsOffsets = d.reportsOffsets :=
  rfl

/-- A node that is left where it is has moved to where it was. -/
theorem moved_refl (d : Document) (c : NodeId) : d.Moved c (d.parent? c) d where
  size := rfl
  reportsOffsets := rfl
  face _ := rfl
  offsetLink _ := rfl
  parent := rfl
  parent_other _ _ := rfl
  children_former _ hq hne := absurd hq hne
  children_other _ _ _ := rfl

namespace WellFormed

variable (h : WellFormed d)
include h

theorem placementError?_eq_none_iff : d.placementError? p c = none ↔ d.Receives p c := by
  rw [placementError?_eq_none, h.mem_inclusiveAncestors]
  constructor
  · rintro ⟨t, ht, hc, hvoid, hroot, hup⟩
    refine ⟨lt_size_of_tag ht, hc, ?_, ?_, hroot, hup⟩ <;>
      · rw [ht]
        rintro ⟨⟩
        cases hvoid
  · rintro ⟨hp, hc, hinput, htext, hroot, hup⟩
    obtain ⟨x, hx⟩ := exists_node hp
    have ht : d.tag? p = some x.tag := by rw [tag?, hx, Option.map_some]
    rw [ht] at hinput htext
    refine ⟨x.tag, ht, hc, ?_, hroot, hup⟩
    cases htag : x.tag <;> simp_all [Tag.isVoid]

theorem moved_detach (c : NodeId) : d.Moved c none (d.detach c) where
  size := size_detach d c
  reportsOffsets := reportsOffsets_detach d c
  face n := face?_detach d c n
  offsetLink n := offsetLink?_detach d c n
  parent := by rw [parent?_detach, if_pos rfl]
  parent_other n hn := by rw [parent?_detach, if_neg hn]
  children_former q _ _ := h.children_detach c q
  children_other q hq _ := by rw [Document.children_detach, if_neg hq]

/-- Linking a node that was taken out moves it. -/
theorem moved_link (hp : p < d.size) (hc : c < d.size) (place : List NodeId → List NodeId) :
    d.Moved c (some p) ((d.detach c).link p c place) := by
  have hp' : p < (d.detach c).size := by rwa [size_detach]
  have hc' : c < (d.detach c).size := by rwa [size_detach]
  have hout := h.moved_detach c
  constructor
  case size => simp
  case reportsOffsets => simp
  case face => intro n; rw [face?_link, hout.face]
  case offsetLink => intro n; rw [offsetLink?_link, hout.offsetLink]
  case parent => rw [parent?_link hc', if_pos rfl]
  case parent_other => intro n hn; rw [parent?_link hc', if_neg hn, hout.parent_other n hn]
  case children_former =>
    intro q hq hne
    have hqp : q ≠ p := fun he => hne (congrArg some he.symm)
    rw [children_link hp', if_neg hqp, hout.children_former q hq nofun]
  case children_other =>
    intro q hq hne
    have hqp : q ≠ p := fun he => hne (congrArg some he.symm)
    rw [children_link hp', if_neg hqp, hout.children_other q hq nofun]

theorem children_move (hp : p < d.size) (c : NodeId) (place : List NodeId → List NodeId) :
    ((d.detach c).link p c place).children p = place ((d.children p).filter (· ≠ c)) := by
  rw [children_link (by rwa [size_detach]), if_pos rfl, h.children_detach]

/-! ### The three edits -/

theorem allOrNothing_appendChild (p c : NodeId) :
    d.AllOrNothing (appendChild p c) (d.Receives p c) fun d' =>
      d.Moved c (some p) d' ∧ d'.children p = (d.children p).filter (· ≠ c) ++ [c] := by
  rw [AllOrNothing, ← h.placementError?_eq_none_iff]
  cases hplace : d.placementError? p c with
  | some cause =>
    refine .inr ⟨nofun, cause, ?_⟩
    simp [edit, appendChild, ExceptT.run, StateT.run, hplace]
  | none =>
    have hr := h.placementError?_eq_none_iff.mp hplace
    refine .inl ⟨rfl, (d.detach c).link p c (· ++ [c]), ?_,
      ⟨h.moved_link hr.parent_exists hr.child_exists _, h.children_move hr.parent_exists c _⟩⟩
    simp [edit, appendChild, ExceptT.run, StateT.run, hplace]

theorem allOrNothing_insertBefore (p c r : NodeId) :
    d.AllOrNothing (insertBefore p c r) (d.Receives p c ∧ d.parent? r = some p) fun d' =>
      d.Moved c (some p) d' ∧ (c = r → d'.children p = d.children p) ∧
        (c ≠ r → ∃ pre post, (d.children p).filter (· ≠ c) = pre ++ r :: post ∧
          d'.children p = pre ++ c :: r :: post) := by
  rw [AllOrNothing, ← h.placementError?_eq_none_iff]
  cases hplace : d.placementError? p c with
  | some cause =>
    refine .inr ⟨?_, cause, ?_⟩
    · rintro ⟨hnone, -⟩
      cases hnone
    · simp [edit, insertBefore, ExceptT.run, StateT.run, hplace]
  | none =>
    have hr := h.placementError?_eq_none_iff.mp hplace
    by_cases hp : d.parent? r = some p
    · refine .inl ⟨⟨rfl, hp⟩, ?_⟩
      by_cases heq : c = r
      · subst heq
        refine ⟨d, by simp [edit, insertBefore, ExceptT.run, StateT.run, hplace, hp],
          hp ▸ d.moved_refl c, fun _ => rfl, fun hne => absurd rfl hne⟩
      · -- the reference is still a child after the node was taken out
        have hmem : r ∈ (d.children p).filter (· ≠ c) := by
          simpa [Ne.symm heq] using (h.mem_children p r).mpr hp
        obtain ⟨pre, post, hsplit⟩ := List.append_of_mem hmem
        have hnodup : ((d.children p).filter (· ≠ c)).Nodup := (h.nodup_children p).filter _
        rw [hsplit, List.nodup_append] at hnodup
        have hpre : r ∉ pre := fun hm => hnodup.2.2 r hm r List.mem_cons_self rfl
        refine ⟨(d.detach c).link p c (insertAhead r c), ?_,
          h.moved_link hr.parent_exists hr.child_exists _, fun he => absurd he heq, fun _ =>
          ⟨pre, post, hsplit, ?_⟩⟩
        · simp only [edit, insertBefore, ExceptT.run, StateT.run, hplace, hp, ne_eq,
            not_true_eq_false, if_false, heq, h.children_detach, hmem, if_true]
        · rw [h.children_move hr.parent_exists, hsplit, insertAhead_append hpre]
    · exact .inr ⟨fun hall => hp hall.2, .notAChild p r, by
        simp [edit, insertBefore, ExceptT.run, StateT.run, hplace, hp]⟩

theorem allOrNothing_removeChild (p c : NodeId) :
    d.AllOrNothing (removeChild p c) (d.parent? c = some p) fun d' =>
      d.Moved c none d' ∧ d'.children p = (d.children p).filter (· ≠ c) := by
  by_cases hp : d.parent? c = some p
  · exact .inl ⟨hp, d.detach c, by simp [edit, removeChild, ExceptT.run, StateT.run, hp],
      h.moved_detach c, h.children_detach c p⟩
  · exact .inr ⟨hp, .notAChild p c, by simp [edit, removeChild, ExceptT.run, StateT.run, hp]⟩

end WellFormed

/-- On every document that operations can lead to, each edit of the tree succeeds exactly where it
is allowed. Appending puts a node at the end of the children, inserting puts it directly in front of
the reference, removing leaves it out; beyond that the node has a new parent and is gone from the
children of its former one, and nothing else has changed. An edit that is not allowed changes
nothing. -/
theorem moves_of_reachable (h : Reachable d) (p c r : NodeId) :
    d.AllOrNothing (appendChild p c) (d.Receives p c) (fun d' =>
      d.Moved c (some p) d' ∧ d'.children p = (d.children p).filter (· ≠ c) ++ [c]) ∧
    d.AllOrNothing (insertBefore p c r) (d.Receives p c ∧ d.parent? r = some p) (fun d' =>
      d.Moved c (some p) d' ∧ (c = r → d'.children p = d.children p) ∧
        (c ≠ r → ∃ pre post, (d.children p).filter (· ≠ c) = pre ++ r :: post ∧
          d'.children p = pre ++ c :: r :: post)) ∧
    d.AllOrNothing (removeChild p c) (d.parent? c = some p) (fun d' =>
      d.Moved c none d' ∧ d'.children p = (d.children p).filter (· ≠ c)) := by
  have hwf := h.wellFormed
  exact ⟨hwf.allOrNothing_appendChild p c, hwf.allOrNothing_insertBefore p c r,
    hwf.allOrNothing_removeChild p c⟩

/-- Operations that put three elements below the body. -/
def siblingOperations : List Operation := [
  .call (.createElement .div), .call (.createElement .div), .call (.createElement .div),
  .call (.appendChild body 2), .call (.appendChild body 3), .call (.appendChild body 4)]

/-- The first of three siblings goes in front of the third, and none of them holds its parent. -/
theorem moves_siblings :
    (∃ d', (after siblingOperations).edit (insertBefore body 2 4) = (.ok (), d') ∧
      (after siblingOperations).Moved 2 (some body) d' ∧ d'.children body = [3, 2, 4]) ∧
    ¬ (after siblingOperations).Receives 2 body ∧
      ((after siblingOperations).edit (appendChild 2 body)).2 = after siblingOperations := by
  obtain ⟨-, hinsert, -⟩ := moves_of_reachable ⟨siblingOperations, rfl⟩ body 2 4
  obtain ⟨happend, -, -⟩ := moves_of_reachable ⟨siblingOperations, rfl⟩ 2 body 2
  refine ⟨?_, ?_⟩
  · have hdone : ((after siblingOperations).edit (insertBefore body 2 4)).1.toOption = some () := by
      decide +kernel
    have hchildren : ((after siblingOperations).edit (insertBefore body 2 4)).2.children body =
        [3, 2, 4] := by decide +kernel
    rcases hinsert with ⟨-, d', he, hmoved, -⟩ | ⟨-, cause, he⟩
    · rw [he] at hchildren
      exact ⟨d', he, hmoved, hchildren⟩
    · rw [he] at hdone
      cases hdone
  · have hdone : ((after siblingOperations).edit (appendChild 2 body)).1.toOption = none := by
      decide +kernel
    rcases happend with ⟨-, d', he, -⟩ | ⟨hnot, cause, he⟩
    · rw [he] at hdone
      cases hdone
    · exact ⟨hnot, by rw [he]⟩

end FormPage.Document
