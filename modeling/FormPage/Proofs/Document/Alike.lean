import FormPage.Proofs.Document.Tree
import FormPage.Document.Query
import Mathlib.Data.List.Forall2
import Mathlib.Logic.Relator

/-!
Documents that look alike. Two documents number the same tree differently: a one-to-one relation
pairs nodes that show the same, hang below paired nodes and have paired children. Whatever is read
from paired nodes is then the same, up to the pairing where it is a node: the ancestors, the
positioned ancestor of the layout, the nodes below, the siblings, the text.
-/

namespace FormPage.Document

open Relation Relator

variable {d d' : Document} {n n' m m' : NodeId} {w : NodeId → NodeId → Prop} {α : Type}

/-! ### Paired options and lists -/

section Lists

variable {β : Type} {r : α → β → Prop} {l : List α} {l' : List β}

theorem eq_none_of_rel {y : Option β} (h : Option.Rel r none y) : y = none := by cases h; rfl

theorem exists_of_rel {a : α} {y : Option β} (h : Option.Rel r (some a) y) :
    ∃ b, y = some b ∧ r a b := by
  cases h with
  | some hb => exact ⟨_, rfl, hb⟩

theorem find?_rel {P : α → Bool} {Q : β → Bool} (h : List.Forall₂ r l l')
    (hP : ∀ a b, r a b → P a = Q b) : Option.Rel r (l.find? P) (l'.find? Q) := by
  induction h with
  | nil => exact .none
  | @cons a b _ _ hab _ ih =>
    rw [List.find?_cons, List.find?_cons, hP a b hab]
    cases Q b with
    | true => exact .some hab
    | false => exact ih

theorem findSome?_rel {γ δ : Type} {s : γ → δ → Prop} {f : α → Option γ} {g : β → Option δ}
    (h : List.Forall₂ r l l') (hf : ∀ a b, r a b → Option.Rel s (f a) (g b)) :
    Option.Rel s (l.findSome? f) (l'.findSome? g) := by
  induction h with
  | nil => exact .none
  | @cons a b _ _ hab _ ih =>
    have hs := hf a b hab
    rw [List.findSome?_cons, List.findSome?_cons]
    generalize f a = x, g b = y at hs
    cases hs with
    | none => exact ih
    | some hxy => exact .some hxy

theorem head?_rel (h : List.Forall₂ r l l') : Option.Rel r l.head? l'.head? := by
  cases h with
  | nil => exact .none
  | cons hab _ => exact .some hab

theorem getElem?_rel (h : List.Forall₂ r l l') (i : Nat) : Option.Rel r l[i]? l'[i]? := by
  induction h generalizing i with
  | nil => exact .none
  | cons hab _ ih =>
    cases i with
    | zero => exact .some hab
    | succ i => exact ih i

theorem map_eq_of_rel {γ : Type} {f : α → γ} {g : β → γ} (h : List.Forall₂ r l l')
    (hf : ∀ a ∈ l, ∀ b, r a b → f a = g b) : l.map f = l'.map g := by
  induction h with
  | nil => rfl
  | @cons a b _ _ hab _ ih =>
    rw [List.map_cons, List.map_cons, hf a List.mem_cons_self b hab,
      ih fun a ha => hf a (List.mem_cons_of_mem _ ha)]

theorem filterMap_eq_of_rel {γ : Type} {f : α → Option γ} {g : β → Option γ}
    (h : List.Forall₂ r l l') (hf : ∀ a b, r a b → f a = g b) :
    l.filterMap f = l'.filterMap g := by
  induction h with
  | nil => rfl
  | @cons a b _ _ hab _ ih => rw [List.filterMap_cons, List.filterMap_cons, hf a b hab, ih]

theorem all_eq_of_rel {P : α → Bool} {Q : β → Bool} (h : List.Forall₂ r l l')
    (hP : ∀ a b, r a b → P a = Q b) : l.all P = l'.all Q := by
  induction h with
  | nil => rfl
  | @cons a b _ _ hab _ ih => rw [List.all_cons, List.all_cons, hP a b hab, ih]

theorem takeWhile_rel {P : α → Bool} {Q : β → Bool} (h : List.Forall₂ r l l')
    (hP : ∀ a b, r a b → P a = Q b) : List.Forall₂ r (l.takeWhile P) (l'.takeWhile Q) := by
  induction h with
  | nil => exact .nil
  | @cons a b _ _ hab _ ih =>
    rw [List.takeWhile_cons, List.takeWhile_cons, hP a b hab]
    cases Q b with
    | true => exact .cons hab ih
    | false => exact .nil

theorem flatMap_rel {γ δ : Type} {s : γ → δ → Prop} {f : α → List γ} {g : β → List δ}
    (h : List.Forall₂ r l l') (hf : ∀ a ∈ l, ∀ b, r a b → List.Forall₂ s (f a) (g b)) :
    List.Forall₂ s (l.flatMap f) (l'.flatMap g) := by
  induction h with
  | nil => exact .nil
  | @cons a b _ _ hab _ ih =>
    rw [List.flatMap_cons, List.flatMap_cons]
    exact List.rel_append (hf a List.mem_cons_self b hab)
      (ih fun a ha => hf a (List.mem_cons_of_mem _ ha))

end Lists

/-! ### Paired nodes -/

/-- What the layout looks at. -/
def look? (d : Document) (n : NodeId) : Option (Tag × Style) :=
  (d.node? n).map fun x => (x.tag, x.style)

theorem look?_eq_face (d : Document) (n : NodeId) :
    d.look? n = (d.face? n).map fun x => (x.tag, x.style) := by
  simp [look?, face?, Function.comp_def, Node.face]

/-- A pairing of nodes that look the same to the layout and hang below paired nodes. -/
structure Aligned (w : NodeId → NodeId → Prop) (d d' : Document) : Prop where
  unique : BiUnique w
  root : w root root
  body : w body body
  look : ∀ n n', w n n' → d.look? n = d'.look? n'
  parent : ∀ n n', w n n' → Option.Rel w (d.parent? n) (d'.parent? n')

/-- A pairing of nodes under which two documents show the same tree. -/
structure Alike (w : NodeId → NodeId → Prop) (d d' : Document) : Prop where
  unique : BiUnique w
  root : w root root
  body : w body body
  lt_size : ∀ n n', w n n' → n < d.size
  face : ∀ n n', w n n' → d.face? n = d'.face? n'
  parent : ∀ n n', w n n' → Option.Rel w (d.parent? n) (d'.parent? n')
  children : ∀ n n', w n n' → List.Forall₂ w (d.children n) (d'.children n')

theorem Alike.aligned (h : Alike w d d') : Aligned w d d' where
  unique := h.unique
  root := h.root
  body := h.body
  look n n' hn := by rw [look?_eq_face, look?_eq_face, h.face n n' hn]
  parent := h.parent

theorem eq_iff_of_rel (hw : BiUnique w) (hn : w n n') (hm : w m m') : n = m ↔ n' = m' :=
  ⟨fun h => hw.2 hn (h ▸ hm), fun h => hw.1 hn (h ▸ hm)⟩

/-- Paths along paired steps are paired. -/
theorem path_rel {next next' : NodeId → Option NodeId} (ha : Acyclic next d.size)
    (ha' : Acyclic next' d'.size)
    (h : ∀ n n', w n n' → Option.Rel w (next n) (next' n')) (hn : w n n') :
    List.Forall₂ w (d.path next (some n)) (d'.path next' (some n')) := by
  induction n using step_induction ha generalizing n' with
  | hP n ih =>
    rw [path_some ha, path_some ha']
    refine .cons hn ?_
    have hnext := h n n' hn
    generalize hs : next n = s at hnext
    generalize hs' : next' n' = s' at hnext
    cases hnext with
    | none => rw [path_none, path_none]; exact .nil
    | some hb => exact ih _ hs hb

/-! ### The layout -/

theorem measures_eq_look (d : Document) (static : Bool) (n : NodeId) :
    d.measures static n = match d.look? n with
      | none => false
      | some (tag, style) =>
        style.position.isPositioned || tag = .body || (static && tag.isTableBox) := by
  rw [measures, look?]; cases d.node? n <;> rfl

theorem style?_eq_look (d : Document) (n : NodeId) : d.style? n = (d.look? n).map (·.2) := by
  rw [style?, look?, Option.map_map]; rfl

theorem layoutParent?_eq_look (d : Document) (n : NodeId) :
    d.layoutParent? n = match d.look? n with
      | none => none
      | some (tag, style) =>
        if tag = .text || n = Document.root || n = Document.body || !d.isRendered n then none
        else (d.ancestors n).find? (d.measures (!style.position.isPositioned)) := by
  rw [layoutParent?, look?]; cases d.node? n <;> rfl

namespace Aligned

variable (h : Aligned w d d') (hd : WellFormed d) (hd' : WellFormed d')
include h hd hd'

theorem inclusiveAncestors (hn : w n n') :
    List.Forall₂ w (d.inclusiveAncestors n) (d'.inclusiveAncestors n') :=
  path_rel hd.acyclic hd'.acyclic h.parent hn

theorem ancestors (hn : w n n') : List.Forall₂ w (d.ancestors n) (d'.ancestors n') := by
  rw [Document.ancestors, Document.ancestors]
  have hp := h.parent n n' hn
  generalize d.parent? n = s, d'.parent? n' = s' at hp
  cases hp with
  | none => rw [path_none, path_none]; exact .nil
  | some hb => exact path_rel hd.acyclic hd'.acyclic h.parent hb

theorem isRendered (hn : w n n') : d.isRendered n = d'.isRendered n' := by
  have hup := h.inclusiveAncestors hd hd' hn
  rw [Document.isRendered, Document.isRendered]
  congr 1
  · rw [List.contains_eq_mem, List.contains_eq_mem, decide_eq_decide]
    exact List.rel_mem h.unique h.root hup
  · refine all_eq_of_rel (takeWhile_rel hup fun a b hab => ?_) fun a b hab => ?_
    · rw [decide_eq_decide, ne_eq, ne_eq, eq_iff_of_rel h.unique hab h.root]
    · rw [style?_eq_look, style?_eq_look, h.look a b hab]

theorem layoutParent? (hn : w n n') : Option.Rel w (d.layoutParent? n) (d'.layoutParent? n') := by
  rw [layoutParent?_eq_look, layoutParent?_eq_look, ← h.look n n' hn, ← h.isRendered hd hd' hn]
  simp only [eq_iff_of_rel h.unique hn h.root, eq_iff_of_rel h.unique hn h.body]
  cases d.look? n with
  | none => exact .none
  | some look =>
    simp only
    split
    · exact .none
    · refine find?_rel (h.ancestors hd hd' hn) fun a b hab => ?_
      rw [measures_eq_look, measures_eq_look, h.look a b hab]

end Aligned

end FormPage.Document
