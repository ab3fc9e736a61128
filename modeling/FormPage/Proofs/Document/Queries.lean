import FormPage.Proofs.Document.Reachable
import FormPage.Proofs.Document.Readings
import FormPage.Proofs.Document.Search

/-!
The nearest-match queries. Each follows its links without a limit until they end, and answers with
the first node that has the tag among those that it meets: the node and its later or earlier
siblings, the children, or the nodes on the way up. Main statement: `queries_of_reachable`.
-/

namespace FormPage.Document

open Relation

variable {d : Document} {n : NodeId} {before behind : List NodeId}

/-- The siblings in front of a node and those behind it. A node without a parent has none. -/
inductive Siblings (d : Document) (n : NodeId) : List NodeId → List NodeId → Prop
  | top (h : d.parent? n = none) : Siblings d n [] []
  | child {p : NodeId} {before behind : List NodeId} (h : d.parent? n = some p)
      (hchildren : d.children p = before ++ n :: behind) : Siblings d n before behind

/-- The answer of a search that starts at `start` and follows `next`: the first node with a tag
among those that it meets, which are the nodes of a list, and no more. -/
structure Answers (d : Document) (next : NodeId → Option NodeId) (tag : Tag)
    (start : Option NodeId) (met : List NodeId) (answer : Option NodeId) : Prop where
  ends : Trail next start met
  first : First (fun n => d.tag? n = some tag) met answer

theorem answers_of_trail {next : NodeId → Option NodeId} {start : Option NodeId}
    {met : List NodeId} (h : Trail next start met) (hpath : d.path next start = met) (tag : Tag) :
    Answers d next tag start met (d.firstTagged tag (d.path next start)) := by
  rw [hpath]
  exact ⟨h, first_firstTagged d tag met⟩

namespace WellFormed

variable (h : WellFormed d)
include h

theorem exists_siblings (n : NodeId) : ∃ before behind, Siblings d n before behind := by
  cases hp : d.parent? n with
  | none => exact ⟨[], [], .top hp⟩
  | some p =>
    obtain ⟨before, behind, hc⟩ := List.append_of_mem ((h.mem_children p n).mpr hp)
    exact ⟨before, behind, .child hp hc⟩

theorem answers_nearestAfter (hs : Siblings d n before behind) (tag : Tag) :
    Answers d d.nextSibling? tag (some n) (n :: behind) (d.nearestAfter? (some n) tag) := by
  cases hs with
  | top hp =>
    have hnext : d.nextSibling? n = none := by rw [nextSibling?, hp]; rfl
    exact answers_of_trail (.step (hnext ▸ .stop)) (path_nextSibling_of_top hp) tag
  | child hp hc =>
    exact answers_of_trail (h.trail_nextSibling hc) (h.path_nextSibling_of_children hc) tag

theorem answers_nearestBefore (hs : Siblings d n before behind) (tag : Tag) :
    Answers d d.previousSibling? tag (some n) (n :: before.reverse)
      (d.nearestBefore? (some n) tag) := by
  cases hs with
  | top hp =>
    have hprevious : d.previousSibling? n = none := by rw [previousSibling?, hp]; rfl
    exact answers_of_trail (.step (hprevious ▸ .stop)) (path_previousSibling_of_top hp) tag
  | @child p _ _ hp hc =>
    have hrev : d.children p = (n :: before.reverse).reverse ++ behind := by simpa using hc
    exact answers_of_trail (h.trail_previousSibling hrev)
      (h.path_previousSibling_of_children hc) tag

theorem answers_firstChildTagged (n : NodeId) (tag : Tag) :
    Answers d d.nextSibling? tag (d.firstChild? n) (d.children n)
      (d.firstChildTagged? (some n) tag) := by
  have hc : d.children n = [] ++ d.children n := rfl
  exact answers_of_trail (h.trail_nextSibling hc) (h.path_nextSibling hc) tag

end WellFormed

/-- Where going up closes no circle, every query ends with the first match among the nodes that it
meets, and with none exactly where none of them matches. Siblings are met from the node itself on,
to the right or to the left among the children of the parent, and a node without a parent is met
alone; children are met in order; on the way up a node is followed by its parent, or by its
positioned ancestor where it has no parent. -/
theorem queries_of_reachable (hd : Reachable d) (hopen : ∀ n, ¬ TransGen (Step d.upward?) n n)
    (tag : Tag) :
    (d.nearestAbove? none tag = none ∧ d.nearestBefore? none tag = none ∧
      d.nearestAfter? none tag = none ∧ d.firstChildTagged? none tag = none) ∧
    ∀ n,
      (∃ before behind, Siblings d n before behind ∧
        Answers d d.nextSibling? tag (some n) (n :: behind) (d.nearestAfter? (some n) tag) ∧
        Answers d d.previousSibling? tag (some n) (n :: before.reverse)
          (d.nearestBefore? (some n) tag)) ∧
      Answers d d.nextSibling? tag (d.firstChild? n) (d.children n)
        (d.firstChildTagged? (some n) tag) ∧
      ∃ above, Answers d d.upward? tag (some n) above (d.nearestAbove? (some n) tag) := by
  have h := hd.wellFormed
  have hup := h.acyclic_upward hopen
  refine ⟨⟨?_, ?_, ?_, ?_⟩, fun n => ⟨?_, h.answers_firstChildTagged n tag, ?_⟩⟩
  · rw [nearestAbove?, path_none]; rfl
  · rw [nearestBefore?, path_none]; rfl
  · rw [nearestAfter?, path_none]; rfl
  · rw [firstChildTagged?, Option.bind_none, nearestAfter?, path_none]; rfl
  · obtain ⟨before, behind, hs⟩ := h.exists_siblings n
    exact ⟨before, behind, hs, h.answers_nearestAfter hs tag, h.answers_nearestBefore hs tag⟩
  · exact ⟨d.path d.upward? (some n), answers_of_trail (trail_path hup n) rfl tag⟩

/-- A table with two rows around a cell, and a detached label that is laid out against the cell. -/
def floatingOperations : List Operation := [
  .call (.createElement .table), .call (.appendChild body 2), .call (.createElement .tr),
  .call (.appendChild 2 3), .call (.createElement .td), .call (.appendChild 2 4),
  .call (.createElement .tr), .call (.appendChild 2 5), .call (.createElement .label),
  .call (.setOffsetParent 6 (some 4))]

/-- From the detached label the way up leads to the table by way of the cell, and from the last row
the cell is the nearest one to the left. -/
theorem queries_floatingLabel :
    (∀ n, ¬ TransGen (Step (after floatingOperations).upward?) n n) ∧
    (∃ above, Answers (after floatingOperations) (after floatingOperations).upward? .table (some 6)
      above (some 2)) ∧
    ∃ before behind, Siblings (after floatingOperations) 5 before behind ∧
      Answers (after floatingOperations) (after floatingOperations).previousSibling? .td (some 5)
        (5 :: before.reverse) (some 4) := by
  have hopen : ∀ n, ¬ TransGen (Step (after floatingOperations).upward?) n n :=
    irrefl_of_upward_lt (by decide +kernel)
  have htable : (after floatingOperations).nearestAbove? (some 6) .table = some 2 := by
    decide +kernel
  have hcell : (after floatingOperations).nearestBefore? (some 5) .td = some 4 := by decide +kernel
  have hreachable : Reachable (after floatingOperations) := ⟨floatingOperations, rfl⟩
  obtain ⟨-, -, above, habove⟩ := (queries_of_reachable hreachable hopen .table).2 6
  obtain ⟨⟨before, behind, hs, -, hbefore⟩, -⟩ := (queries_of_reachable hreachable hopen .td).2 5
  rw [htable] at habove
  rw [hcell] at hbefore
  exact ⟨hopen, ⟨above, habove⟩, before, behind, hs, hbefore⟩

end FormPage.Document
