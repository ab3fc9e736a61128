import FormPage.Proofs.Balloon.Parts
import FormPage.Proofs.Page.Snapshot

/-!
What edits leave in place. Three things about a document outlive the edits of a page: what lies
above the nodes whose parents stay, the links that the layout gave to the nodes outside the balloon,
and the element that is found by an id. Each is stated for two documents that agree on the nodes in
question, whatever edit led from one to the other.
-/

namespace FormPage.Document

open Relation Relator

variable {d d' : Document} {n m a : NodeId}

/-! ### Nodes with the same parents -/

/-- Going up from these nodes is the same in both documents, and never leaves them. -/
structure SameAbove (S : NodeId → Prop) (d d' : Document) : Prop where
  parent : ∀ n, S n → d.parent? n = d'.parent? n
  closed : ∀ n q, S n → d.parent? n = some q → S q

section SameAbove

variable {S : NodeId → Prop} (h : SameAbove S d d')
include h

theorem SameAbove.symm : SameAbove S d' d where
  parent n hn := (h.parent n hn).symm
  closed n q hn hq := h.closed n q hn ((h.parent n hn).trans hq)

theorem SameAbove.atOrAbove (hn : S n) (hr : d.AtOrAbove a n) : d'.AtOrAbove a n := by
  induction hr using ReflTransGen.head_induction_on with
  | refl => exact .refl
  | @head b c hbc _ ih =>
    exact .head ((h.parent b hn).symm.trans hbc) (ih (h.closed b c hn hbc))

theorem SameAbove.above (hn : S n) (hr : d.Above a n) : d'.Above a n := by
  obtain ⟨q, hq, hr⟩ := TransGen.head'_iff.mp hr
  exact TransGen.head' ((h.parent n hn).symm.trans hq) (h.atOrAbove (h.closed n q hn hq) hr)

end SameAbove

theorem above_relayout : d.relayout.Above a n ↔ d.Above a n := by
  rw [Above, Above, funext (parent?_relayout d)]

theorem atOrAbove_relayout : d.relayout.AtOrAbove a n ↔ d.AtOrAbove a n := by
  rw [AtOrAbove, AtOrAbove, funext (parent?_relayout d)]

/-- Of an attached node, the parent is attached. -/
theorem atOrAbove_of_parent {p : NodeId} (hp : d.parent? n = some p) (hn : d.AtOrAbove a n)
    (hne : n ≠ a) : d.AtOrAbove a p := by
  rcases hn.cases_head with rfl | ⟨q, hq, hr⟩
  · exact absurd rfl hne
  · exact step_unique hp hq ▸ hr

theorem WellFormed.eq_root_of_above (h : WellFormed d) (hr : d.AtOrAbove a root) : a = root := by
  rcases hr.cases_head with rfl | ⟨q, hq, -⟩
  · rfl
  · rw [Step, h.root_top] at hq; cases hq

theorem Framed.parent?_body (h : d.Framed) : d.parent? body = some root := by
  rw [← h.wellFormed.mem_children, h.children_root]
  exact List.mem_singleton_self _

theorem Framed.above_body (h : d.Framed) (hr : d.AtOrAbove a body) : a = body ∨ a = root := by
  rcases hr.cases_head with rfl | ⟨q, hq, hr⟩
  · exact .inl rfl
  · obtain rfl := step_unique hq h.parent?_body
    exact .inr (h.wellFormed.eq_root_of_above hr)

/-! ### The links of the layout -/

/-- An attached node outside of an element, if there is one. -/
def Outside (d : Document) (element : Option NodeId) (n : NodeId) : Prop :=
  d.AtOrAbove root n ∧ ∀ e, element = some e → ¬ d.AtOrAbove e n

/-- Outside of the element, every link is the one that the tree and the styles give. -/
def Linked (d : Document) (element : Option NodeId) : Prop :=
  ∀ n, d.Outside element n → d.offsetLink? n = d.layoutParent? n

variable {element : Option NodeId}

/-- Whether a node is outside of an element is read off its line of ancestors. -/
theorem WellFormed.outside_iff (h : WellFormed d) : d.Outside element n ↔
    root ∈ d.inclusiveAncestors n ∧ ∀ e, element = some e → e ∉ d.inclusiveAncestors n := by
  simp only [Outside, h.mem_inclusiveAncestors]

theorem WellFormed.outside_parent (h : WellFormed d) {q : NodeId} (hn : d.Outside element n)
    (hq : d.parent? n = some q) : d.Outside element q := by
  refine ⟨atOrAbove_of_parent hq hn.1 ?_, fun e he hr => hn.2 e he (.head hq hr)⟩
  rintro rfl
  rw [h.root_top] at hq
  cases hq

/-- The positioned ancestor of the layout is the same where neither a parent nor what the layout
looks at differs. -/
theorem Framed.layoutParent?_of_same (hd : d.Framed) (hd' : d'.Framed)
    (he : ∀ e, element = some e → e ≠ root ∧ e ≠ body)
    (hsame : ∀ n, d'.Outside element n → d.parent? n = d'.parent? n ∧ d.look? n = d'.look? n)
    (hn : d'.Outside element n) : d.layoutParent? n = d'.layoutParent? n := by
  have hroot : d'.Outside element root := ⟨.refl, fun e hE hr =>
    (he e hE).1 (hd'.wellFormed.eq_root_of_above hr)⟩
  have hbody : d'.Outside element body := ⟨.single hd'.parent?_body, fun e hE hr =>
    (hd'.above_body hr).elim (he e hE).2 (he e hE).1⟩
  have haligned : Aligned (fun n m => d'.Outside element n ∧ n = m) d d' := by
    constructor
    case unique =>
      exact ⟨fun _ _ _ h₁ h₂ => h₁.2.trans h₂.2.symm, fun _ _ _ h₁ h₂ => h₁.2.symm.trans h₂.2⟩
    case root => exact ⟨hroot, rfl⟩
    case body => exact ⟨hbody, rfl⟩
    case look => rintro n _ ⟨hn, rfl⟩; exact (hsame n hn).2
    case parent =>
      rintro n _ ⟨hn, rfl⟩
      rw [(hsame n hn).1]
      cases hq : d'.parent? n with
      | none => exact .none
      | some q => exact .some ⟨hd'.wellFormed.outside_parent hn hq, rfl⟩
  have hrel := haligned.layoutParent? hd.wellFormed hd'.wellFormed ⟨hn, rfl⟩
  generalize d.layoutParent? n = s, d'.layoutParent? n = s' at hrel
  cases hrel with
  | none => rfl
  | some h => rw [h.2]

/-- Links stay right where neither a parent nor what the layout looks at changes. -/
theorem Linked.of_same (h : d.Linked element) (hd : d.Framed) (hd' : d'.Framed)
    (he : ∀ e, element = some e → e ≠ root ∧ e ≠ body)
    (hsame : ∀ n, d'.Outside element n → d.parent? n = d'.parent? n ∧ d.look? n = d'.look? n ∧
      d.offsetLink? n = d'.offsetLink? n) : d'.Linked element := by
  have habove : SameAbove (d'.Outside element) d' d :=
    ⟨fun n hn => (hsame n hn).1.symm, fun n q hn hq => hd'.wellFormed.outside_parent hn hq⟩
  intro n hn
  have hout : d.Outside element n := ⟨habove.atOrAbove hn hn.1, fun e hE hr =>
    hn.2 e hE (habove.symm.atOrAbove hn hr)⟩
  rw [← (hsame n hn).2.2, h n hout]
  exact hd.layoutParent?_of_same hd' he (fun m hm => ⟨(hsame m hm).1, (hsame m hm).2.1⟩) hn

/-- A fresh layout links every node. -/
theorem WellFormed.layoutParent?_relayout (h : WellFormed d) (n : NodeId) :
    d.relayout.layoutParent? n = d.layoutParent? n := by
  have haligned : Aligned (fun n m => n = m) d d.relayout := by
    constructor
    case unique => exact ⟨fun _ _ _ h₁ h₂ => h₁.trans h₂.symm, fun _ _ _ h₁ h₂ => h₁.symm.trans h₂⟩
    case root => rfl
    case body => rfl
    case look => rintro n _ rfl; rw [look?_eq_face, look?_eq_face, face?_relayout]
    case parent =>
      rintro n _ rfl
      rw [parent?_relayout]
      cases d.parent? n with
      | none => exact .none
      | some q => exact .some rfl
  have hrel := haligned.layoutParent? h h.relayout (n := n) rfl
  generalize d.layoutParent? n = s, d.relayout.layoutParent? n = s' at hrel
  cases hrel with
  | none => rfl
  | some h => rw [h]

theorem WellFormed.linked_relayout (h : WellFormed d) (element : Option NodeId) :
    d.relayout.Linked element :=
  fun n _ => by rw [offsetLink?_relayout, h.layoutParent?_relayout]

/-! ### The element with an id -/

theorem find?_filter_of_imp {α : Type} {P : α → Bool} (keep : α → Bool) : ∀ {l : List α},
    (∀ x ∈ l, P x = true → keep x = true) → (l.filter keep).find? P = l.find? P
  | [], _ => rfl
  | x :: l, h => by
    have ih := find?_filter_of_imp keep fun y hy => h y (List.mem_cons_of_mem x hy)
    cases hP : P x with
    | true => rw [List.filter_cons_of_pos (h x List.mem_cons_self hP), List.find?_cons_of_pos hP,
        List.find?_cons_of_pos hP]
    | false =>
      have hnot : ¬ P x = true := by simp [hP]
      rw [List.find?_cons_of_neg hnot, List.filter_cons]
      split
      · rw [List.find?_cons_of_neg hnot, ih]
      · exact ih

theorem find?_filter_of_first {α : Type} {P keep : α → Bool} {a : α} : ∀ {l : List α},
    l.find? P = some a → keep a = true → (l.filter keep).find? P = some a
  | x :: l, h, ha => by
    cases hP : P x with
    | true =>
      rw [List.find?_cons_of_pos hP] at h
      cases h
      rw [List.filter_cons_of_pos ha, List.find?_cons_of_pos hP]
    | false =>
      have hnot : ¬ P x = true := by simp [hP]
      rw [List.find?_cons_of_neg hnot] at h
      have ih := find?_filter_of_first h ha
      rw [List.filter_cons]
      split
      · rw [List.find?_cons_of_neg hnot, ih]
      · exact ih

theorem flatMap_filter_of_nil {α β : Type} {keep : α → Bool} {f : α → List β} :
    ∀ {l : List α}, (∀ x ∈ l, keep x = false → f x = []) → (l.filter keep).flatMap f = l.flatMap f
  | [], _ => rfl
  | x :: l, h => by
    have ih := flatMap_filter_of_nil fun y hy => h y (List.mem_cons_of_mem x hy)
    cases hk : keep x with
    | true => rw [List.filter_cons_of_pos hk, List.flatMap_cons, List.flatMap_cons, ih]
    | false =>
      rw [List.filter_cons_of_neg (by simp [hk]), List.flatMap_cons, h x List.mem_cons_self hk, ih]
      rfl

theorem kept_of_atOrAbove {keep : NodeId → Bool}
    (hup : ∀ n q, d.parent? n = some q → keep n = true → keep q = true)
    (hr : d.AtOrAbove a n) (hn : keep n = true) : keep a = true := by
  induction hr with
  | refl => exact hn
  | tail _ hs ih => exact hup _ _ hs ih

theorem WellFormed.filter_preorder_eq_nil (h : WellFormed d) {keep : NodeId → Bool}
    (hup : ∀ n q, d.parent? n = some q → keep n = true → keep q = true) (hn : keep n = false) :
    (d.preorder n).filter keep = [] := by
  refine List.filter_eq_nil_iff.mpr fun m hm hk => ?_
  rw [kept_of_atOrAbove hup (h.mem_preorder.mp hm).2 hk] at hn
  cases hn

/-- Documents that agree on kept nodes meet them in the same order. -/
theorem WellFormed.filter_preorder (h : WellFormed d) (h' : WellFormed d') {keep : NodeId → Bool}
    (hup : ∀ n q, d.parent? n = some q → keep n = true → keep q = true)
    (hup' : ∀ n q, d'.parent? n = some q → keep n = true → keep q = true)
    (hlt : ∀ n, keep n = true → n < d.size ∧ n < d'.size)
    (hchildren : ∀ n, keep n = true →
      (d.children n).filter keep = (d'.children n).filter keep) (hn : keep n = true) :
    (d.preorder n).filter keep = (d'.preorder n).filter keep := by
  induction n using h.below_induction with
  | hP n ih =>
    obtain ⟨hlt, hlt'⟩ := hlt n hn
    have hcut : ∀ {x : Document}, WellFormed x →
        (∀ n q, x.parent? n = some q → keep n = true → keep q = true) →
          ((x.children n).flatMap x.preorder).filter keep =
            ((x.children n).filter keep).flatMap fun c => (x.preorder c).filter keep :=
      fun hx hupx => by
        rw [List.filter_flatMap, flatMap_filter_of_nil]
        exact fun c _ hc => hx.filter_preorder_eq_nil hupx hc
    rw [h.preorder_of_lt hlt, h'.preorder_of_lt hlt', List.filter_cons_of_pos hn,
      List.filter_cons_of_pos hn, hcut h hup, hcut h' hup', ← hchildren n hn]
    congr 1
    refine List.flatMap_congr fun c hc => ?_
    exact ih c (List.mem_of_mem_filter hc) (List.of_mem_filter hc)

theorem WellFormed.filter_descendants (h : WellFormed d) (h' : WellFormed d')
    (keep : NodeId → Bool) (hup : ∀ n q, d.parent? n = some q → keep n = true → keep q = true)
    (hup' : ∀ n q, d'.parent? n = some q → keep n = true → keep q = true)
    (hlt : ∀ n, keep n = true → n < d.size ∧ n < d'.size)
    (hchildren : ∀ n, keep n = true →
      (d.children n).filter keep = (d'.children n).filter keep) (hn : keep n = true) :
    (d.descendants n).filter keep = (d'.descendants n).filter keep := by
  have hpre := h.filter_preorder h' hup hup' hlt hchildren hn
  rw [h.preorder_of_lt (hlt n hn).1, h'.preorder_of_lt (hlt n hn).2, List.filter_cons_of_pos hn,
    List.filter_cons_of_pos hn, List.cons.injEq] at hpre
  rw [h.descendants_eq, h'.descendants_eq, hpre.2]

theorem find?_id_congr {l : List NodeId} {id : String}
    (h : ∀ n ∈ l, d'.attribute? n "id" = d.attribute? n "id") :
    l.find? (fun n => d'.attribute? n "id" = some id) =
      l.find? fun n => d.attribute? n "id" = some id := by
  induction l with
  | nil => rfl
  | cons x l ih =>
    rw [List.find?_cons, List.find?_cons, h x List.mem_cons_self,
      ih fun y hy => h y (List.mem_cons_of_mem x hy)]

theorem WellFormed.filter_children (h : WellFormed d) :
    (d.children n).filter (· < d.size) = d.children n :=
  List.filter_eq_self.mpr fun c hc => decide_eq_true (h.child_lt n c hc)

theorem WellFormed.filter_append_places (h : WellFormed d) (p : NodeId) (s : NodeSpec) :
    (d.children p ++ NodeSpec.places d.size [s]).filter (· < d.size) = d.children p := by
  rw [List.filter_append, h.filter_children]
  simp [NodeSpec.places]

/-- Among the children after a graft, the older ones are the children before it. -/
theorem WellFormed.filter_children_graft (h : WellFormed d) {p : NodeId} {ss : List NodeSpec}
    {place : List NodeId → List NodeId}
    (hplace : (place (d.children p)).filter (· < d.size) = d.children p) (hm : m < d.size) :
    ((d.graft p place ss).children m).filter (· < d.size) = d.children m := by
  rw [children_graft_old hm]
  split
  · rename_i hmp
    rw [hplace, hmp]
  · exact h.filter_children

/-- Adding nodes that do not carry an id does not change what is found by it. -/
theorem elementById?_of_old (h : WellFormed d) (h' : WellFormed d') {id : String}
    (hroot : root < d.size) (hsize : d.size ≤ d'.size)
    (hparent : ∀ n < d.size, d'.parent? n = d.parent? n)
    (hchildren : ∀ n < d.size, (d'.children n).filter (· < d.size) = d.children n)
    (hold : ∀ n < d.size, d'.attribute? n "id" = d.attribute? n "id")
    (hnew : ∀ n, d.size ≤ n → d'.attribute? n "id" ≠ some id) :
    d'.elementById? id = d.elementById? id := by
  have hfilter := h.filter_descendants h' (fun n => decide (n < d.size)) (n := root)
    (fun n q hq _ => decide_eq_true (h.parent_lt n q hq))
    (fun n q hq hn => by
      rw [hparent n (of_decide_eq_true hn)] at hq
      exact decide_eq_true (h.parent_lt n q hq))
    (fun n hn => ⟨of_decide_eq_true hn, Nat.lt_of_lt_of_le (of_decide_eq_true hn) hsize⟩)
    (fun n hn => by
      rw [hchildren n (of_decide_eq_true hn)]
      exact List.filter_eq_self.mpr fun c hc => decide_eq_true (h.child_lt n c hc))
    (decide_eq_true hroot)
  rw [elementById?, elementById?, ← find?_filter_of_imp fun n => decide (n < d.size),
    ← hfilter, find?_id_congr, find?_filter_of_imp]
  · exact fun n hn ha => by
      rw [decide_eq_true_eq] at ha ⊢
      obtain ⟨x, hx, -⟩ := Option.bind_eq_some_iff.mp ha
      exact lt_size_of_node hx
  · exact fun n hn => hold n (of_decide_eq_true (List.mem_filter.mp hn).2)
  · refine fun n _ ha => decide_eq_true ?_
    by_contra hlt
    exact hnew n (Nat.le_of_not_lt hlt) (of_decide_eq_true ha)

/-- What is still attached after a region was cleared did not lie below the region. -/
theorem WellFormed.not_above_of_cleared (h : WellFormed d) {region : NodeId}
    (hregion : ¬ d.Above region a) (hr : (Balloon.cleared d region).AtOrAbove a n) :
    ¬ d.Above region n := by
  induction hr using ReflTransGen.head_induction_on with
  | refl => exact hregion
  | @head n q hs _ ih =>
    intro hn
    rw [Step, Balloon.parent?_cleared h] at hs
    split at hs
    · cases hs
    · rename_i hne
      obtain ⟨q', hq', hr⟩ := TransGen.head'_iff.mp hn
      obtain rfl := step_unique hs hq'
      rcases hr.cases_head with rfl | ⟨b, hb, hr⟩
      · exact hne hs
      · exact ih (TransGen.head' hb hr)

/-- Taking out what lies below a region does not change what is found by an id, unless it was found
there. -/
theorem elementById?_cleared (h : WellFormed d) {region : NodeId} (id : String)
    (hroot : root < d.size) (hregion : ¬ d.Above region root)
    (hfound : ∀ e, d.elementById? id = some e → ¬ d.Above region e) :
    (Balloon.cleared d region).elementById? id = d.elementById? id := by
  have h' := Balloon.wellFormed_cleared h region
  have hkeep : ∀ n, (decide (n < d.size) && decide (region ∉ d.ancestors n)) = true ↔
      n < d.size ∧ ¬ d.Above region n := fun n => by
    rw [Bool.and_eq_true, decide_eq_true_eq, decide_eq_true_eq, h.mem_ancestors]
  have hup : ∀ n q, d.parent? n = some q → n < d.size ∧ ¬ d.Above region n →
      q < d.size ∧ ¬ d.Above region q := fun n q hq hn =>
    ⟨h.parent_lt n q hq, fun hr => hn.2 (.head hq hr)⟩
  have hfilter := h.filter_descendants h'
    (fun n => decide (n < d.size) && decide (region ∉ d.ancestors n)) (n := root)
    (fun n q hq hn => (hkeep q).mpr (hup n q hq ((hkeep n).mp hn)))
    (fun n q hq hn => by
      rw [Balloon.parent?_cleared h] at hq
      split at hq
      · cases hq
      · exact (hkeep q).mpr (hup n q hq ((hkeep n).mp hn)))
    (fun n hn => by rw [Balloon.size_cleared h]; exact ⟨((hkeep n).mp hn).1, ((hkeep n).mp hn).1⟩)
    (fun n hn => by
      rw [Balloon.children_cleared h]
      split
      · rename_i hnr
        refine List.filter_eq_nil_iff.mpr fun c hc hk => ((hkeep c).mp hk).2 ?_
        exact .single (hnr ▸ (h.mem_children n c).mp hc)
      · rfl)
    ((hkeep root).mpr ⟨hroot, hregion⟩)
  have hid : ∀ n, (Balloon.cleared d region).attribute? n "id" = d.attribute? n "id" := fun n => by
    rw [attribute?_eq_face, attribute?_eq_face, Balloon.face?_cleared h]
  have hall : ∀ n ∈ (Balloon.cleared d region).descendants root,
      (decide (n < d.size) && decide (region ∉ d.ancestors n)) = true := fun n hn => by
    have hr := h'.mem_descendants.mp hn
    refine (hkeep n).mpr ⟨?_, h.not_above_of_cleared hregion hr.to_reflTransGen⟩
    rw [← Balloon.size_cleared h region]
    exact h'.lt_of_mem_descendants hn
  rw [elementById?, elementById?, ← List.filter_eq_self.mpr hall, ← hfilter]
  simp only [hid]
  cases hfirst : (d.descendants root).find? fun n => d.attribute? n "id" = some id with
  | none => exact List.find?_eq_none.mpr fun n hn =>
      List.find?_eq_none.mp hfirst n (List.mem_of_mem_filter hn)
  | some e =>
    have hlt := h.lt_of_mem_descendants (List.mem_of_find?_eq_some hfirst)
    exact find?_filter_of_first hfirst ((hkeep e).mpr ⟨hlt, hfound e hfirst⟩)

theorem WellFormed.preorder_of_children (h : WellFormed d) (h' : WellFormed d')
    (hsame : ∀ m, d.AtOrAbove n m → d.children m = d'.children m ∧ (m < d.size ↔ m < d'.size)) :
    d.preorder n = d'.preorder n := by
  induction n using h.below_induction with
  | hP n ih =>
    obtain ⟨hchildren, hsize⟩ := hsame n .refl
    by_cases hn : n < d.size
    · rw [h.preorder_of_lt hn, h'.preorder_of_lt (hsize.mp hn), ← hchildren]
      congr 1
      refine List.flatMap_congr fun c hc => ih c hc fun m hm => hsame m ?_
      exact hm.tail ((h.mem_children n c).mp hc)
    · rw [preorder_of_size_le (Nat.le_of_not_lt hn),
        preorder_of_size_le (Nat.le_of_not_lt fun hn' => hn (hsize.mpr hn'))]

/-- A tree that is grafted behind the children of the body comes last. -/
theorem Framed.descendants_graftLast (h : d.Framed) {s : NodeSpec}
    (h' : (d.graftLast body [s]).Framed) : (d.graftLast body [s]).descendants root =
      d.descendants root ++ (d.graftLast body [s]).preorder d.size := by
  have hbody : body < d.size := h.lt_size (.single h.parent?_body)
  have hbody' : body < (d.graftLast body [s]).size := h'.lt_size (.single h'.parent?_body)
  have hbelow : ∀ c ∈ d.children body, d.preorder c = (d.graftLast body [s]).preorder c :=
    fun c hc => by
      refine h.wellFormed.preorder_of_children h'.wellFormed fun m hm => ?_
      have hcb := (h.wellFormed.mem_children body c).mp hc
      have hm_lt : m < d.size := by
        rcases hm.cases_head with rfl | ⟨q, hq, -⟩
        · exact lt_size_of_parent hcb
        · exact lt_size_of_parent hq
      have hne : m ≠ body := by
        rintro rfl
        exact h.wellFormed.not_above_self body (TransGen.tail' hm hcb)
      rw [graftLast, children_graft_old hm_lt, if_neg hne, size_graft]
      exact ⟨rfl, fun hlt => Nat.lt_of_lt_of_le hlt (Nat.le_add_right _ _), fun _ => hm_lt⟩
  rw [h.wellFormed.descendants_eq, h'.wellFormed.descendants_eq, h.children_root, h'.children_root,
    List.flatMap_singleton, List.flatMap_singleton, h.wellFormed.preorder_of_lt hbody,
    h'.wellFormed.preorder_of_lt hbody']
  have hchildren : (d.graftLast body [s]).children body = d.children body ++ [d.size] :=
    children_graftLast hbody [s]
  rw [hchildren, List.flatMap_append, List.flatMap_singleton, List.cons_append,
    ← List.flatMap_congr hbelow]

/-- A grafted element is found by its id, unless another one was found before. -/
theorem Framed.elementById?_graftLast (h : d.Framed) {s : NodeSpec} (id : String)
    (h' : (d.graftLast body [s]).Framed) (hid : s.attributes.get? "id" = some id) :
    (d.graftLast body [s]).elementById? id = (d.elementById? id).or (some d.size) := by
  have hs : (d.graftLast body [s]).attribute? d.size "id" = some id := by
    rw [attribute?_eq_face, graftLast, face?_graft_first]
    exact hid
  have hlt : d.size < (d.graftLast body [s]).size := by
    rw [graftLast, size_graft, NodeSpec.flatAll, List.length_append]
    exact Nat.lt_add_of_pos_right (Nat.lt_of_lt_of_le s.length_flat_pos (Nat.le_add_right _ _))
  rw [elementById?, elementById?, h.descendants_graftLast h', List.find?_append, find?_id_congr,
    h'.wellFormed.preorder_of_lt hlt, List.find?_cons_of_pos (by simpa using hs)]
  intro n hn
  rw [attribute?_eq_face, attribute?_eq_face, graftLast,
    face?_graft_old (h.wellFormed.lt_of_mem_descendants hn)]

end FormPage.Document
