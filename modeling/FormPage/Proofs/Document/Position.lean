import FormPage.Proofs.Document.Alike
import Mathlib.Data.List.Induction

/-!
Positions. The position of an attached node is the path to it from the root, as the places it takes
among the children on the way down. A node has one position and a position one node, so that the
nodes of two documents are paired by their positions.
-/

namespace FormPage.Document

open Relation Relator

variable {d d' : Document} {n n' m : NodeId} {w : NodeId → NodeId → Prop}

/-- The node that a path below a node leads to. -/
def below? (d : Document) (n : NodeId) : List Nat → Option NodeId
  | [] => some n
  | i :: path => (d.children n)[i]?.bind fun c => d.below? c path

/-- The node at a position. -/
def nodeAt? (d : Document) (path : List Nat) : Option NodeId := d.below? root path

/-- Two nodes at the same position of two documents. -/
def SamePlace (d d' : Document) (n n' : NodeId) : Prop :=
  ∃ path, d.nodeAt? path = some n ∧ d'.nodeAt? path = some n'

theorem below?_append (d : Document) : ∀ (path rest : List Nat) (n : NodeId),
    d.below? n (path ++ rest) = (d.below? n path).bind fun m => d.below? m rest
  | [], _, _ => rfl
  | i :: path, rest, n => by
    rw [List.cons_append, below?, below?, Option.bind_assoc]
    exact Option.bind_congr fun c _ => below?_append d path rest c

theorem below?_concat (d : Document) (n : NodeId) (path : List Nat) (i : Nat) :
    d.below? n (path ++ [i]) = (d.below? n path).bind fun m => (d.children m)[i]? := by
  rw [below?_append]
  refine Option.bind_congr fun m _ => ?_
  rw [below?]
  cases (d.children m)[i]? <;> rfl

theorem nodeAt?_concat (path : List Nat) {i : Nat} {p : NodeId} (hp : d.nodeAt? path = some p)
    (hc : (d.children p)[i]? = some n) : d.nodeAt? (path ++ [i]) = some n := by
  rw [nodeAt?] at hp
  rw [nodeAt?, below?_concat, hp, Option.bind_some, hc]

section WellFormed

variable (h : WellFormed d)
include h

theorem WellFormed.parent?_of_getElem? {i : Nat} (hc : (d.children n)[i]? = some m) :
    d.parent? m = some n :=
  (h.mem_children n m).mp (List.mem_of_getElem? hc)

/-- No node has two positions. -/
theorem WellFormed.nodeAt?_injective (a : List Nat) : ∀ {b : List Nat} {n : NodeId},
    d.nodeAt? a = some n → d.nodeAt? b = some n → a = b := by
  have hroot : ∀ {b : List Nat} {i : Nat}, d.nodeAt? (b ++ [i]) ≠ some root := fun {b i} hb => by
    rw [nodeAt?, below?_concat, Option.bind_eq_some_iff] at hb
    obtain ⟨q, -, hq⟩ := hb
    have hp := h.parent?_of_getElem? hq
    rw [h.root_top] at hp
    cases hp
  induction a using List.reverseRecOn with
  | nil =>
    intro b n ha hb
    cases ha
    rcases List.eq_nil_or_concat' b with rfl | ⟨b, i, rfl⟩
    · rfl
    · exact absurd hb hroot
  | append_singleton a i ih =>
    intro b n ha hb
    rcases List.eq_nil_or_concat' b with rfl | ⟨b, j, rfl⟩
    · cases hb
      exact absurd ha hroot
    · rw [nodeAt?, below?_concat, Option.bind_eq_some_iff] at ha hb
      obtain ⟨p, hp, hpn⟩ := ha
      obtain ⟨q, hq, hqn⟩ := hb
      obtain rfl : p = q := step_unique (h.parent?_of_getElem? hpn) (h.parent?_of_getElem? hqn)
      have hi := (List.getElem?_eq_some_iff.mp hpn).1
      rw [ih hp hq, (List.getElem?_inj hi (h.nodup_children p)).mp (hpn.trans hqn.symm)]

/-- Below a node lies what a path from it leads to. -/
theorem WellFormed.atOrAbove_of_below? : ∀ {path : List Nat} {n m : NodeId},
    d.below? n path = some m → d.AtOrAbove n m
  | [], n, m, hm => by cases hm; exact .refl
  | i :: path, n, m, hm => by
    obtain ⟨c, hc, hm⟩ := Option.bind_eq_some_iff.mp hm
    exact (WellFormed.atOrAbove_of_below? hm).tail (h.parent?_of_getElem? hc)

theorem WellFormed.exists_below? (hr : d.AtOrAbove n m) : ∃ path, d.below? n path = some m := by
  induction hr using ReflTransGen.head_induction_on with
  | refl => exact ⟨[], rfl⟩
  | @head a b hab _ ih =>
    obtain ⟨path, hpath⟩ := ih
    obtain ⟨i, hi⟩ := List.getElem?_of_mem ((h.mem_children b a).mpr hab)
    exact ⟨path ++ [i], by rw [below?_concat, hpath, Option.bind_some, hi]⟩

/-- A node is attached exactly if it has a position. -/
theorem WellFormed.exists_nodeAt? : (∃ path, d.nodeAt? path = some n) ↔ d.AtOrAbove root n :=
  ⟨fun ⟨_, hpath⟩ => h.atOrAbove_of_below? hpath, h.exists_below?⟩

theorem biUnique_samePlace (h' : WellFormed d') : BiUnique (SamePlace d d') := by
  constructor
  · rintro a b c ⟨path, ha, hc⟩ ⟨path', hb, hc'⟩
    rw [h'.nodeAt?_injective path hc hc'] at ha
    exact Option.some.inj (ha.symm.trans hb)
  · rintro a b c ⟨path, ha, hb⟩ ⟨path', ha', hc⟩
    rw [h.nodeAt?_injective path ha ha'] at hb
    exact Option.some.inj (hb.symm.trans hc)

end WellFormed

/-- Positions lead to paired nodes. -/
theorem Alike.below? (h : Alike w d d') : ∀ (path : List Nat) {n n' : NodeId}, w n n' →
    Option.Rel w (d.below? n path) (d'.below? n' path)
  | [], _, _, hn => .some hn
  | i :: path, n, n', hn => by
    have hc := getElem?_rel (h.children n n' hn) i
    rw [Document.below?, Document.below?]
    generalize (d.children n)[i]? = s, (d'.children n')[i]? = s' at hc
    cases hc with
    | none => exact .none
    | some hab => exact h.below? path hab

theorem Alike.nodeAt? (h : Alike w d d') (path : List Nat) :
    Option.Rel w (d.nodeAt? path) (d'.nodeAt? path) :=
  h.below? path h.root

/-- Nodes at the same position are paired. -/
theorem Alike.rel_of_samePlace (h : Alike w d d') (hn : SamePlace d d' n n') : w n n' := by
  obtain ⟨path, hpath, hpath'⟩ := hn
  have hrel := h.nodeAt? path
  rw [hpath, hpath'] at hrel
  cases hrel with
  | some hw => exact hw

/-- Paired attached nodes are at the same position. -/
theorem Alike.samePlace (h : Alike w d d') (hd : WellFormed d) (hn : w n n')
    (hroot : d.AtOrAbove Document.root n) : SamePlace d d' n n' := by
  obtain ⟨path, hpath⟩ := hd.exists_nodeAt?.mpr hroot
  have hrel := h.nodeAt? path
  rw [hpath] at hrel
  generalize hs : d'.nodeAt? path = s at hrel
  cases hrel with
  | some hm => exact ⟨path, hpath, by rw [hs, h.unique.2 hn hm]⟩

end FormPage.Document
