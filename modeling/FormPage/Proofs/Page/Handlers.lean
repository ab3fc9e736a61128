import FormPage.Page.Bindings
import FormPage.Proofs.OrderedMap
import Mathlib.Data.List.Nodup

/-!
The handlers of one node. A binding is seen at its node and nowhere else, and the action of a node
for an event is read from the handlers of that node alone.
-/

namespace FormPage.Bindings

open OrderedMap

variable {b : Bindings} {n m : NodeId}

/-- What a handler does at a node. -/
def atNode (n : NodeId) (h : (NodeId × Event) × Action) : Option (Event × Action) :=
  if h.1.1 = n then some (h.1.2, h.2) else none

theorem filterMap_put (n m : NodeId) (e : Event) (a : Action) :
    ∀ es : List ((NodeId × Event) × Action), (put (n, e) a es).filterMap (atNode m) =
      if m = n then put e a (es.filterMap (atNode n)) else es.filterMap (atNode m)
  | [] => by
    by_cases hm : m = n
    · simp [put, atNode, hm]
    · simp [put, atNode, hm, Ne.symm hm]
  | h :: es => by
    have ih := filterMap_put n m e a es
    by_cases hh : h.1 = (n, e)
    · by_cases hm : m = n
      · simp [put, atNode, hh, hm]
      · simp [put, atNode, hh, hm, Ne.symm hm]
    · rw [put, if_neg hh, List.filterMap_cons, ih]
      by_cases hm : m = n
      · subst hm
        rw [if_pos rfl, if_pos rfl, List.filterMap_cons]
        by_cases hn : h.1.1 = m
        · have he : h.1.2 ≠ e := fun he => hh (Prod.ext hn he)
          simp [atNode, hn, put, he]
        · simp [atNode, hn]
      · rw [if_neg hm, if_neg hm, List.filterMap_cons]

/-- A binding is seen at its node and nowhere else. -/
theorem ofNode_bind (b : Bindings) (n m : NodeId) (e : Event) (a : Action) :
    (b.bind n e a).ofNode m = if m = n then put e a (b.ofNode n) else b.ofNode m :=
  filterMap_put n m e a b.handlers.entries

theorem nodup_filterMap (n : NodeId) : ∀ {es : List ((NodeId × Event) × Action)},
    (es.map Prod.fst).Nodup → ((es.filterMap (atNode n)).map Prod.fst).Nodup
  | [], _ => List.nodup_nil
  | h :: es, hnd => by
    rw [List.map_cons, List.nodup_cons] at hnd
    have ih := nodup_filterMap n hnd.2
    rw [List.filterMap_cons]
    by_cases hn : h.1.1 = n
    · simp only [atNode, hn, if_true, List.map_cons, List.nodup_cons]
      refine ⟨fun hm => hnd.1 ?_, ih⟩
      obtain ⟨x, hx, hxe⟩ := List.mem_map.mp hm
      obtain ⟨y, hy, hyx⟩ := List.mem_filterMap.mp hx
      rw [atNode] at hyx
      split at hyx
      · rename_i hyn
        cases hyx
        exact List.mem_map.mpr ⟨y, hy, Prod.ext (hyn.trans hn.symm) hxe⟩
      · cases hyx
    · simpa [atNode, hn] using ih

/-- No event occurs twice among the handlers of a node. -/
theorem nodup_ofNode (b : Bindings) (n : NodeId) : ((b.ofNode n).map Prod.fst).Nodup :=
  nodup_filterMap n b.handlers.nodup

theorem lookup_ofNode (n : NodeId) (e : Event) :
    ∀ es : List ((NodeId × Event) × Action),
      lookup (n, e) es = lookup e (es.filterMap (atNode n))
  | [] => rfl
  | h :: es => by
    rw [lookup, List.filterMap_cons, lookup_ofNode n e es]
    by_cases hn : h.1.1 = n
    · by_cases he : h.1.2 = e
      · simp [atNode, lookup, show h.1 = (n, e) from Prod.ext hn he]
      · have hne : h.1 ≠ (n, e) := fun hh => he (congrArg Prod.snd hh)
        simp [atNode, hn, lookup, he, hne]
    · have hne : h.1 ≠ (n, e) := fun hh => hn (congrArg Prod.fst hh)
      simp [atNode, hn, hne]

/-- The action of a node is one of its handlers. -/
theorem action?_eq_ofNode (b : Bindings) (n : NodeId) (e : Event) :
    b.action? n e = lookup e (b.ofNode n) :=
  lookup_ofNode n e b.handlers.entries

/-- Binds handlers to a node one after the other. -/
def bindAll (b : Bindings) (n : NodeId) (es : List (Event × Action)) : Bindings :=
  es.foldl (fun b e => b.bind n e.1 e.2) b

theorem ofNode_bindAll (n m : NodeId) : ∀ (es : List (Event × Action)) (b : Bindings),
    (b.bindAll n es).ofNode m =
      if m = n then es.foldl (fun l e => put e.1 e.2 l) (b.ofNode n) else b.ofNode m
  | [], b => by
    by_cases hm : m = n
    · rw [if_pos hm, hm]; rfl
    · rw [if_neg hm]; rfl
  | e :: es, b => by
    have ih := ofNode_bindAll n m es (b.bind n e.1 e.2)
    rw [ofNode_bind, ofNode_bind, if_pos rfl] at ih
    refine ih.trans ?_
    by_cases hm : m = n
    · rw [if_pos hm, if_pos hm]; rfl
    · rw [if_neg hm, if_neg hm, if_neg hm]

end FormPage.Bindings
