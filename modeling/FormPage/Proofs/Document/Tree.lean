import FormPage.Proofs.Document.WellFormed
import Mathlib.Data.List.Nodup

/-!
Well-formed documents as trees. A fold is the recursion on the lists of children (`fold_eq`), with
no trace of the depth at which it is cut off; `below_induction` is the induction that goes with it.
The loop over first children and next siblings (`Descends`) ends and meets the nodes in preorder
(`descendants_eq`), and these are the nodes below, each once.
-/

namespace FormPage.Document

open Relation

variable {d d' : Document} {n m p c : NodeId} {α β : Type}

/-! ### Walks that only see the links -/

/-- A fold that sees a node through a view gives the same on documents with the same views and
children. -/
theorem foldFrom_congr (view : Node → β) (g : NodeId → β → List α → α) {missing : α}
    (h : ∀ n, (d.node? n).map (fun x => (view x, x.children)) =
      (d'.node? n).map fun x => (view x, x.children)) :
    ∀ (k : Nat) (n : NodeId), d.foldFrom (fun n x => g n (view x)) missing k n =
      d'.foldFrom (fun n x => g n (view x)) missing k n
  | 0, _ => rfl
  | k + 1, n => by
    have hn := h n
    rw [foldFrom, foldFrom]
    cases hx : d.node? n with
    | none => rw [hx] at hn; rw [Option.map_eq_none_iff.mp hn.symm]
    | some x =>
      rw [hx] at hn
      obtain ⟨y, hy, hxy⟩ := Option.map_eq_some_iff.mp hn.symm
      simp only [Prod.mk.injEq] at hxy
      rw [hy]
      simp only [hxy.1, hxy.2]
      congr 2
      funext c
      exact foldFrom_congr view g h k c

theorem descendFrom_congr (hparent : ∀ n, d.parent? n = d'.parent? n)
    (hchildren : ∀ n, d.children n = d'.children n) :
    ∀ (k : Nat) (s : Option NodeId) (stack : List NodeId),
      descendFrom d k s stack = descendFrom d' k s stack
  | 0, _, _ => rfl
  | k + 1, some n, stack => by
    rw [descendFrom, descendFrom, descendFrom_congr hparent hchildren k, firstChild?, firstChild?,
      hchildren]
  | k + 1, none, n :: stack => by
    have hnext : d.nextSibling? n = d'.nextSibling? n := by
      rw [nextSibling?, nextSibling?, hparent]; simp only [hchildren]
    rw [descendFrom, descendFrom, descendFrom_congr hparent hchildren k, hnext]
  | _ + 1, none, [] => rfl

theorem descendants_congr (hsize : d.size = d'.size) (hparent : ∀ n, d.parent? n = d'.parent? n)
    (hchildren : ∀ n, d.children n = d'.children n) (n : NodeId) :
    d.descendants n = d'.descendants n := by
  rw [descendants, descendants, hsize, firstChild?, firstChild?, hchildren]
  exact descendFrom_congr hparent hchildren _ _ _

theorem following_append : ∀ {pre post : List NodeId}, c ∉ pre →
    following c (pre ++ c :: post) = post.head?
  | [], [], _ => rfl
  | [], b :: post, _ => if_pos rfl
  | a :: pre, post, h => by
    obtain ⟨hne, hpre⟩ := not_or.mp (mt List.mem_cons.mpr h)
    obtain ⟨b, rest, hb⟩ := List.exists_cons_of_ne_nil
      (List.append_ne_nil_of_right_ne_nil pre (List.cons_ne_nil c post))
    rw [List.cons_append, hb, following, if_neg (Ne.symm hne), ← hb]
    exact following_append hpre

/-! ### The loop without a limit -/

/-- The loop over the nodes below a node. It goes from a node down to its first child; where there
is none, it leaves the node that it entered last and goes on to the next sibling of that one. -/
inductive Descends (d : Document) : Option NodeId → List NodeId → List NodeId → Prop
  | stop : Descends d none [] []
  | enter {n : NodeId} {stack below : List NodeId}
      (h : Descends d (d.firstChild? n) (n :: stack) below) : Descends d (some n) stack (n :: below)
  | leave {n : NodeId} {stack below : List NodeId}
      (h : Descends d (d.nextSibling? n) stack below) : Descends d none (n :: stack) below

/-- A loop that ends has entered and left every node that it met, and left those on the stack. -/
theorem Descends.descendFrom_eq {start : Option NodeId} {stack below : List NodeId}
    (h : Descends d start stack below) : ∀ {limit : Nat},
      2 * below.length + stack.length ≤ limit → descendFrom d limit start stack = below := by
  induction h with
  | stop => intro limit _; cases limit <;> rfl
  | @enter n stack below _ ih =>
    intro limit hlimit
    simp only [List.length_cons] at hlimit ih
    obtain ⟨limit, rfl⟩ : ∃ k, limit = k + 1 := ⟨limit - 1, by omega⟩
    rw [descendFrom, ih (by omega)]
  | @leave n stack below _ ih =>
    intro limit hlimit
    rw [List.length_cons] at hlimit
    obtain ⟨limit, rfl⟩ : ∃ k, limit = k + 1 := ⟨limit - 1, by omega⟩
    rw [descendFrom, ih (by omega)]

/-! ### Recursion and induction over the tree -/

namespace WellFormed

variable (h : WellFormed d)
include h

theorem height_child (hc : c ∈ d.children n) :
    d.height d.parent? c = d.height d.parent? n + 1 :=
  height_of_step h.acyclic ((h.mem_children n c).mp hc)

/-- What holds of a node as soon as it holds of its children holds of all. -/
theorem below_induction {P : NodeId → Prop} (hP : ∀ n, (∀ c ∈ d.children n, P c) → P n)
    (n : NodeId) : P n := by
  induction hk : d.size - d.height d.parent? n using Nat.strongRecOn generalizing n with
  | ind k ih =>
    refine hP n fun c hc => ih (d.size - d.height d.parent? c) ?_ c rfl
    have hup := h.height_child hc
    have hle := height_le h.acyclic (h.child_lt n c hc)
    omega

theorem foldFrom_succ (step : NodeId → Node → List α → α) (missing : α) :
    ∀ (k : Nat) (n : NodeId), d.size ≤ k + d.height d.parent? n →
      d.foldFrom step missing (k + 1) n = d.foldFrom step missing (k + 2) n
  | k, n, hk => by
    rw [foldFrom, foldFrom]
    cases hx : d.node? n with
    | none => rfl
    | some x =>
      simp only
      congr 1
      refine List.map_congr_left fun c hc => ?_
      rw [← children_of_node hx] at hc
      have hup := h.height_child hc
      have hle := height_le h.acyclic (h.child_lt n c hc)
      -- a node with children does not lie at the greatest height
      obtain ⟨k, rfl⟩ : ∃ k', k = k' + 1 := ⟨k - 1, by omega⟩
      exact foldFrom_succ step missing k c (by omega)

/-- A fold is the recursion on the lists of children. -/
theorem fold_eq (step : NodeId → Node → List α → α) (missing : α) (n : NodeId) :
    d.fold step missing n =
      match d.node? n with
      | none => missing
      | some x => step n x (x.children.map (d.fold step missing)) := by
  rw [fold, foldFrom]
  cases hx : d.node? n with
  | none => rfl
  | some x =>
    simp only
    congr 1
    refine List.map_congr_left fun c hc => ?_
    have hlt := lt_size_of_node hx
    obtain ⟨k, hk⟩ : ∃ k, d.size = k + 1 := ⟨d.size - 1, by have := Nat.zero_lt_of_lt hlt; omega⟩
    rw [← children_of_node hx] at hc
    have hup := h.height_child hc
    have hpos := height_pos h.acyclic n
    rw [fold, hk]
    exact h.foldFrom_succ step missing k c (by omega)

theorem fold_of_node {x : Node} (hx : d.node? n = some x) (step : NodeId → Node → List α → α)
    (missing : α) :
    d.fold step missing n = step n x ((d.children n).map (d.fold step missing)) := by
  rw [h.fold_eq, hx, children_of_node hx]

/-- A fold is the same in two documents in which the nodes from one on downwards are the same to
it and have the same children. -/
theorem fold_congr_below (h' : WellFormed d') {step : NodeId → Node → List α → α} {missing : α}
    (hn : n < d.size) (hsame : ∀ m x, d.AtOrAbove n m → d.node? m = some x →
      ∃ x', d'.node? m = some x' ∧ x'.children = x.children ∧ ∀ l, step m x' l = step m x l) :
    d'.fold step missing n = d.fold step missing n := by
  induction n using h.below_induction with
  | hP n ih =>
    obtain ⟨x, hx⟩ := exists_node hn
    obtain ⟨x', hx', hchildren, hstep⟩ := hsame n x .refl hx
    rw [h.fold_of_node hx, h'.fold_of_node hx', children_of_node hx', hchildren,
      ← children_of_node hx, hstep]
    congr 1
    refine List.map_congr_left fun c hc => ih c hc (h.child_lt n c hc) fun m y hm => ?_
    exact hsame m y (hm.tail ((h.mem_children n c).mp hc))

/-! ### Preorder -/

theorem preorder_of_lt (hn : n < d.size) :
    d.preorder n = n :: (d.children n).flatMap d.preorder := by
  obtain ⟨x, hx⟩ := exists_node hn
  rw [preorder, h.fold_of_node hx]; rfl

omit h in
theorem preorder_of_size_le (hn : d.size ≤ n) : d.preorder n = [] := by
  rw [preorder, fold, foldFrom, node?_eq_none_iff.mpr hn]

theorem preorder_of_node {x : Node} (hx : d.node? n = some x) :
    d.preorder n = n :: x.children.flatMap d.preorder := by
  rw [h.preorder_of_lt (lt_size_of_node hx), children_of_node hx]

theorem mem_preorder : m ∈ d.preorder n ↔ n < d.size ∧ d.AtOrAbove n m := by
  induction n using h.below_induction generalizing m with
  | hP n ih =>
    by_cases hn : n < d.size
    · rw [h.preorder_of_lt hn, List.mem_cons, List.mem_flatMap, AtOrAbove]
      constructor
      · rintro (rfl | ⟨c, hc, hm⟩)
        · exact ⟨hn, .refl⟩
        · exact ⟨hn, ((ih c hc).mp hm).2.tail ((h.mem_children n c).mp hc)⟩
      · rintro ⟨-, hr⟩
        rcases ReflTransGen.cases_tail hr with rfl | ⟨c, hr, hc⟩
        · exact .inl rfl
        · have hc := (h.mem_children n c).mpr hc
          exact .inr ⟨c, hc, (ih c hc).mpr ⟨h.child_lt n c hc, hr⟩⟩
    · simp [preorder_of_size_le (Nat.le_of_not_lt hn), hn]

theorem mem_flatMap_preorder : m ∈ (d.children n).flatMap d.preorder ↔ d.Above n m := by
  rw [List.mem_flatMap, Above, TransGen.tail'_iff]
  constructor
  · rintro ⟨c, hc, hm⟩
    exact ⟨c, (h.mem_preorder.mp hm).2, (h.mem_children n c).mp hc⟩
  · rintro ⟨c, hr, hc⟩
    have hc := (h.mem_children n c).mpr hc
    exact ⟨c, hc, h.mem_preorder.mpr ⟨h.child_lt n c hc, hr⟩⟩

/-- Of two children of one node neither lies above the other. -/
theorem eq_of_siblings {c c' : NodeId} (hc : d.parent? c = some p) (hc' : d.parent? c' = some p)
    (hr : d.AtOrAbove c' c) : c = c' := by
  rcases ReflTransGen.cases_head hr with rfl | ⟨b, hb, hr⟩
  · rfl
  · rw [step_unique hb hc] at hr
    exact absurd (TransGen.tail' hr hc') (h.not_above_self p)

theorem nodup_preorder (n : NodeId) : (d.preorder n).Nodup := by
  induction n using h.below_induction with
  | hP n ih =>
    by_cases hn : n < d.size
    · rw [h.preorder_of_lt hn]
      refine List.nodup_cons.mpr ⟨fun hm => ?_, List.nodup_flatMap.mpr ⟨ih, ?_⟩⟩
      · exact h.not_above_self n (h.mem_flatMap_preorder.mp hm)
      · refine (h.nodup_children n).imp_of_mem fun {c c'} hc hc' hne => ?_
        refine List.disjoint_left.mpr fun m hm hm' => hne ?_
        have hc := (h.mem_children n c).mp hc
        have hc' := (h.mem_children n c').mp hc'
        rcases reaches_total (h.mem_preorder.mp hm).2 (h.mem_preorder.mp hm').2 with hr | hr
        · exact h.eq_of_siblings hc hc' hr
        · exact (h.eq_of_siblings hc' hc hr).symm
    · rw [preorder_of_size_le (Nat.le_of_not_lt hn)]; exact List.nodup_nil

theorem length_preorder_le (n : NodeId) : (d.preorder n).length ≤ d.size := by
  have hsub : d.preorder n ⊆ List.range d.size := fun m hm => by
    obtain ⟨hn, hr⟩ := h.mem_preorder.mp hm
    rcases ReflTransGen.cases_head hr with rfl | ⟨b, hb, -⟩
    · exact List.mem_range.mpr hn
    · exact List.mem_range.mpr (lt_size_of_parent hb)
  simpa using ((h.nodup_preorder n).subperm hsub).length_le

/-- The loop over a list of siblings, the last children of a node, meets them and all below them,
and goes on as it does where there is none. -/
theorem descends_siblings (p : NodeId) : ∀ {pre cs : List NodeId}, d.children p = pre ++ cs →
    ∀ {stack below : List NodeId}, Descends d none stack below →
      Descends d cs.head? stack (cs.flatMap d.preorder ++ below) := by
  induction p using h.below_induction with
  | hP p ih =>
    intro pre cs hcs
    induction cs generalizing pre with
    | nil => exact fun hbelow => hbelow
    | cons c cs ihcs =>
      intro stack below hbelow
      have hc : c ∈ d.children p := by rw [hcs]; simp
      have hpre : c ∉ pre := fun hm => by
        have hnd := h.nodup_children p
        rw [hcs] at hnd
        exact (List.nodup_append.mp hnd).2.2 c hm c List.mem_cons_self rfl
      have hnext : d.nextSibling? c = cs.head? := by
        rw [nextSibling?, (h.mem_children p c).mp hc, Option.bind_some, hcs]
        exact following_append hpre
      have hcs' : d.children p = (pre ++ [c]) ++ cs := by simpa using hcs
      have hleave : Descends d none (c :: stack) (cs.flatMap d.preorder ++ below) :=
        .leave (hnext ▸ ihcs hcs' hbelow)
      rw [List.flatMap_cons, h.preorder_of_lt (h.child_lt p c hc), List.append_assoc]
      exact .enter (ih c hc (List.nil_append (d.children c)).symm hleave)

/-- The loop below a node ends, and it has met the nodes below in preorder. -/
theorem descends_preorder (n : NodeId) :
    Descends d (d.firstChild? n) [] ((d.children n).flatMap d.preorder) := by
  have hloop := h.descends_siblings n (List.nil_append (d.children n)).symm .stop
  rwa [List.append_nil] at hloop

/-- The loop over first children and next siblings meets the nodes below in preorder. -/
theorem descendants_eq (n : NodeId) : d.descendants n = (d.children n).flatMap d.preorder := by
  have hlen : ((d.children n).flatMap d.preorder).length ≤ d.size := by
    by_cases hn : n < d.size
    · have hle := h.length_preorder_le n
      rw [h.preorder_of_lt hn, List.length_cons] at hle
      omega
    · rw [children, node?_eq_none_iff.mpr (Nat.le_of_not_lt hn)]; simp
  refine (h.descends_preorder n).descendFrom_eq ?_
  rw [List.length_nil]
  omega

theorem mem_descendants : m ∈ d.descendants n ↔ d.Above n m := by
  rw [h.descendants_eq, h.mem_flatMap_preorder]

theorem preorder_eq_cons (hn : n < d.size) : d.preorder n = n :: d.descendants n := by
  rw [h.preorder_of_lt hn, h.descendants_eq]

theorem lt_of_mem_descendants (hm : m ∈ d.descendants n) : m < d.size := by
  obtain ⟨q, hq, -⟩ := TransGen.head'_iff.mp (h.mem_descendants.mp hm)
  exact lt_size_of_parent hq

end WellFormed

end FormPage.Document
