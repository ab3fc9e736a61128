import FormPage.Proofs.Document.OffsetLinks
import Mathlib.Algebra.Ring.Int.Defs

/-!
The corner of a balloon as a sum of integers. The size of the anchor and the offsets along its chain
of positioned ancestors are added in words of 32 bits; here the sums are those of the integers that
the words stand for, and a balloon has no place exactly where one of them leaves the range or there
is nothing to add up (`Unplaced`). Main statement: after any operations every chain ends, and a
balloon that has a place has it at the exact sums, shifted back and then brought into the range.
-/

namespace FormPage

namespace Text

/-! ### Words and integers -/

theorem word32?_eq_some_iff {n : Int} {x : Int32} : word32? n = some x ↔ x.toInt = n := by
  refine ⟨fun h => ?_, fun h => h ▸ word32?_toInt x⟩
  rw [word32?] at h
  split at h
  · rename_i hfits
    obtain rfl := Option.some.inj h
    exact Int32.toInt_ofInt_of_le hfits.1 (Int.lt_add_one_of_le hfits.2)
  · cases h

theorem exists_toInt_eq_iff {n : Int} : (∃ x : Int32, x.toInt = n) ↔ Fits32 n := by
  refine ⟨fun ⟨x, hx⟩ => hx ▸ ⟨x.le_toInt, Int.le_of_lt_add_one x.toInt_lt⟩, fun h => ?_⟩
  exact ⟨Int32.ofInt n, word32?_eq_some_iff.mp (if_pos h)⟩

/-- The integer of the range of 32 bits that is nearest to an integer. -/
def clamped (n : Int) : Int := max (-2147483648) (min n 2147483647)

theorem toInt_clamp32 (n : Int) : (clamp32 n).toInt = clamped n := by
  rw [clamp32, clamped]
  split
  · rw [Int32.toInt_minValue]
    omega
  · split
    · rw [Int32.toInt_maxValue]
      omega
    · rw [Int32.toInt_ofInt_of_le (by omega) (by omega)]
      omega

end Text

namespace Document

open Text

variable {d : Document} {n a target : NodeId} {ns ns' : List NodeId}

/-! ### Sums of offsets -/

/-- What offsets add up to, whatever the range. -/
def total (first : Int32) (offsets : List Int32) : Int :=
  first.toInt + (offsets.map Int32.toInt).sum

theorem total_cons {first x y : Int32} (h : y.toInt = first.toInt + x.toInt) (xs : List Int32) :
    total first (x :: xs) = total y xs := by
  rw [total, total, h, List.map_cons, List.sum_cons, Int.add_assoc]

theorem addOffset_eq_some_iff {x y z : Int32} :
    addOffset x y = some z ↔ z.toInt = x.toInt + y.toInt :=
  word32?_eq_some_iff

/-- Every sum on the way from `first` through the offsets stays in the range. -/
def WithinRange (first : Int32) (offsets : List Int32) : Prop :=
  ∀ j < offsets.length, Fits32 (total first (offsets.take (j + 1)))

/-- The first sum is in the range if it is a word, from which the rest stay in the range. -/
theorem withinRange_cons {first x : Int32} {xs : List Int32} : WithinRange first (x :: xs) ↔
    ∃ y : Int32, y.toInt = first.toInt + x.toInt ∧ WithinRange y xs := by
  constructor
  · intro h
    have hfirst := h 0 (Nat.succ_pos _)
    obtain ⟨y, hy⟩ := exists_toInt_eq_iff.mpr hfirst
    have hsum : y.toInt = first.toInt + x.toInt := by simpa [total] using hy
    refine ⟨y, hsum, fun j hj => ?_⟩
    rw [← total_cons hsum]
    exact h (j + 1) (Nat.succ_lt_succ hj)
  · rintro ⟨y, hsum, h⟩ j hj
    rw [List.take_succ_cons, total_cons hsum]
    cases j with
    | zero => simpa [total] using exists_toInt_eq_iff.mp ⟨y, rfl⟩
    | succ j => exact h j (Nat.lt_of_succ_lt_succ hj)

/-- Offsets have a sum if every sum on the way stays in the range, and it is the exact one. -/
theorem sumOffsets_eq_some_iff : ∀ {offsets : List Int32} {first s : Int32},
    sumOffsets first offsets = some s ↔
      WithinRange first offsets ∧ s.toInt = total first offsets
  | [], first, s => by
    have hwithin : WithinRange first [] := nofun
    simp [sumOffsets, hwithin, total, Int32.toInt_inj, eq_comm]
  | x :: xs, first, s => by
    rw [sumOffsets, List.foldlM_cons, withinRange_cons]
    refine Option.bind_eq_some_iff.trans ?_
    constructor
    · rintro ⟨y, hy, hrest⟩
      have hsum := addOffset_eq_some_iff.mp hy
      obtain ⟨hin, hs⟩ := sumOffsets_eq_some_iff.mp hrest
      exact ⟨⟨y, hsum, hin⟩, by rw [total_cons hsum, hs]⟩
    · rintro ⟨⟨y, hy, hin⟩, hs⟩
      rw [total_cons hy] at hs
      exact ⟨y, addOffset_eq_some_iff.mpr hy, sumOffsets_eq_some_iff.mpr ⟨hin, hs⟩⟩

theorem exists_sumOffsets_iff : ∀ {offsets : List Int32} {first : Int32},
    (∃ s, sumOffsets first offsets = some s) ↔ WithinRange first offsets
  | [], first => ⟨fun _ => nofun, fun _ => ⟨first, rfl⟩⟩
  | x :: xs, first => by
    rw [withinRange_cons]
    refine ⟨fun ⟨s, hs⟩ => withinRange_cons.mp (sumOffsets_eq_some_iff.mp hs).1, ?_⟩
    rintro ⟨y, hy, hin⟩
    obtain ⟨s, hs⟩ := exists_sumOffsets_iff.mpr hin
    exact ⟨s, Option.bind_eq_some_iff.mpr ⟨y, addOffset_eq_some_iff.mpr hy, hs⟩⟩

example : sumOffsets Int32.maxValue [1, -1] = none := by decide

theorem toInt_shiftBack (x y : Int32) : (shiftBack x y).toInt = clamped (x.toInt - y.toInt) :=
  toInt_clamp32 _

/-! ### Chains of positioned ancestors -/

/-- From `n` along the positioned ancestors, as far as the layout reports them, lie the nodes of a
list, and no more. -/
inductive Chain (d : Document) : NodeId → List NodeId → Prop
  | last {n : NodeId} (h : d.offsetParent? n = none) : Chain d n [n]
  | next {n m : NodeId} {ns : List NodeId} (h : d.offsetParent? n = some m) (hns : Chain d m ns) :
    Chain d n (n :: ns)

theorem Chain.unique (h : d.Chain n ns) (h' : d.Chain n ns') : ns' = ns := by
  induction h generalizing ns' with
  | last h =>
    cases h' with
    | last => rfl
    | next h' => rw [h] at h'; cases h'
  | next h _ ih =>
    cases h' with
    | last h' => rw [h] at h'; cases h'
    | next h' hns' =>
      rw [h] at h'
      cases h'
      rw [ih hns']

/-- Where the links close no circle, the listed walk is the chain. -/
theorem chain_offsetChain (h : Acyclic d.offsetParent? d.size) : ∀ n,
    d.Chain n (d.offsetChain n) := by
  refine step_induction h fun n ih => ?_
  rw [offsetChain, path_some h]
  cases hn : d.offsetParent? n with
  | none => rw [path_none]; exact .last hn
  | some m => exact .next hn (ih m hn)

/-- The width of an anchor and the left offsets of nodes, as an integer. -/
def leftTotal (d : Document) (anchor : NodeId) (ns : List NodeId) : Int :=
  (d.box anchor).width.toInt + (ns.map fun n => (d.box n).left.toInt).sum

/-- The height of an anchor and the top offsets of nodes, as an integer. -/
def topTotal (d : Document) (anchor : NodeId) (ns : List NodeId) : Int :=
  (d.box anchor).height.toInt + (ns.map fun n => (d.box n).top.toInt).sum

theorem leftTotal_eq (d : Document) (anchor : NodeId) (ns : List NodeId) :
    d.leftTotal anchor ns = total (d.box anchor).width ((ns.map d.box).map (·.left)) := by
  rw [leftTotal, total, List.map_map, List.map_map]
  rfl

theorem topTotal_eq (d : Document) (anchor : NodeId) (ns : List NodeId) :
    d.topTotal anchor ns = total (d.box anchor).height ((ns.map d.box).map (·.top)) := by
  rw [topTotal, total, List.map_map, List.map_map]
  rfl

/-- The sums for an anchor leave the range behind the first nodes of its chain. -/
def Leaves (d : Document) (anchor : NodeId) (ns : List NodeId) : Prop :=
  ∃ j < ns.length,
    ¬ Fits32 (d.leftTotal anchor (ns.take (j + 1))) ∨ ¬ Fits32 (d.topTotal anchor (ns.take (j + 1)))

theorem not_leaves_iff : ¬ d.Leaves a ns ↔
    WithinRange (d.box a).width ((ns.map d.box).map (·.left)) ∧
      WithinRange (d.box a).height ((ns.map d.box).map (·.top)) := by
  simp only [Leaves, leftTotal_eq, topTotal_eq, WithinRange, List.length_map, ← List.map_take,
    not_exists, not_and, not_or, not_not, forall_and]

/-! ### Places -/

/-- A balloon has no place next to a node: the layout does not report positioned ancestors, or the
node has no child, or its first child no positioned ancestor, or a sum leaves the range. -/
inductive Unplaced (d : Document) (target : NodeId) : Prop
  | unreported (h : d.reportsOffsets = false)
  | childless (h : d.firstChild? target = none)
  | unlinked {anchor : NodeId} (h : d.firstChild? target = some anchor)
      (hlink : d.offsetLink? anchor = none)
  | leaves {anchor : NodeId} {ns : List NodeId} (h : d.firstChild? target = some anchor)
      (hns : d.Chain anchor ns) (hout : d.Leaves anchor ns)

/-- A place is known once the child, its positioned ancestor and both sums are. -/
theorem balloonPlacement?_eq_some_iff {nudge : Nudge} {place : Placement} :
    d.balloonPlacement? target nudge = some place ↔
      ∃ anchor, d.firstChild? target = some anchor ∧ (∃ m, d.offsetParent? anchor = some m) ∧
        ∃ left top,
          sumOffsets (d.box anchor).width (((d.offsetChain anchor).map d.box).map (·.left)) =
            some left ∧
          sumOffsets (d.box anchor).height (((d.offsetChain anchor).map d.box).map (·.top)) =
            some top ∧
          place = ⟨shiftBack left nudge.left, shiftBack top nudge.top⟩ := by
  simp only [balloonPlacement?, Option.bind_eq_bind, Option.bind_eq_some_iff, Option.pure_def,
    Option.some.injEq, eq_comm (b := place)]
  constructor
  · rintro ⟨anchor, hanchor, m, hm, left, hleft, top, htop, hplace⟩
    exact ⟨anchor, hanchor, ⟨m, hm⟩, left, top, hleft, htop, hplace⟩
  · rintro ⟨anchor, hanchor, ⟨m, hm⟩, left, top, hleft, htop, hplace⟩
    exact ⟨anchor, hanchor, m, hm, left, hleft, top, htop, hplace⟩

/-- A balloon without a place gets none. -/
theorem Unplaced.balloonPlacement?_eq (h : Acyclic d.offsetParent? d.size)
    (hnone : d.Unplaced target) (nudge : Nudge) : d.balloonPlacement? target nudge = none := by
  refine Option.eq_none_iff_forall_ne_some.mpr fun place hplace => ?_
  obtain ⟨anchor, hanchor, ⟨m, hm⟩, left, top, hleft, htop, -⟩ :=
    balloonPlacement?_eq_some_iff.mp hplace
  rw [offsetParent?] at hm
  cases hnone with
  | unreported hoff => simp [hoff] at hm
  | childless hempty => cases hanchor.symm.trans hempty
  | unlinked hanchor' hlink =>
    obtain rfl := Option.some.inj (hanchor'.symm.trans hanchor)
    simp [hlink] at hm
  | leaves hanchor' hns hout =>
    obtain rfl := Option.some.inj (hanchor'.symm.trans hanchor)
    obtain rfl := (chain_offsetChain h _).unique hns
    exact not_leaves_iff.mpr
      ⟨(sumOffsets_eq_some_iff.mp hleft).1, (sumOffsets_eq_some_iff.mp htop).1⟩ hout

/-- Any other balloon has its place at the exact sums, shifted back as far as the range goes. -/
theorem exists_balloonPlacement? (h : Acyclic d.offsetParent? d.size)
    (hplaced : ¬ d.Unplaced target) (nudge : Nudge) :
    ∃ anchor ns place, d.firstChild? target = some anchor ∧ d.Chain anchor ns ∧
      d.balloonPlacement? target nudge = some place ∧
      place.left.toInt = clamped (d.leftTotal anchor ns - nudge.left.toInt) ∧
      place.top.toInt = clamped (d.topTotal anchor ns - nudge.top.toInt) := by
  obtain ⟨anchor, hanchor⟩ := Option.ne_none_iff_exists'.mp fun hnone => hplaced (.childless hnone)
  obtain ⟨m, hm⟩ : ∃ m, d.offsetParent? anchor = some m := by
    refine Option.ne_none_iff_exists'.mp fun hnone => hplaced ?_
    rw [offsetParent?] at hnone
    split at hnone
    · exact .unlinked hanchor hnone
    · exact .unreported (Bool.eq_false_iff.mpr ‹_›)
  have hchain := chain_offsetChain h anchor
  obtain ⟨hleft, htop⟩ := not_leaves_iff.mp fun hout => hplaced (.leaves hanchor hchain hout)
  obtain ⟨left, hleft⟩ := exists_sumOffsets_iff.mpr hleft
  obtain ⟨top, htop⟩ := exists_sumOffsets_iff.mpr htop
  refine ⟨anchor, _, _, hanchor, hchain, balloonPlacement?_eq_some_iff.mpr
    ⟨anchor, hanchor, ⟨m, hm⟩, left, top, hleft, htop, rfl⟩, ?_, ?_⟩
  · rw [toInt_shiftBack, (sumOffsets_eq_some_iff.mp hleft).2, leftTotal_eq]
  · rw [toInt_shiftBack, (sumOffsets_eq_some_iff.mp htop).2, topTotal_eq]

/-- After any operations, for every target and every shift: the chain of positioned ancestors of
every node ends; there is no place exactly where the layout does not report positioned ancestors,
the target has no child, the child has no positioned ancestor, or a sum on the way along its chain
leaves the range of 32 bits. Everywhere else the place is the exact sum along the chain less the
shift, brought into that range, to the left as to the top. -/
theorem corner_after (ops : List Operation) (target : NodeId) (nudge : Nudge) :
    (∀ n, ∃ ns, (after ops).Chain n ns ∧ ∀ ns', (after ops).Chain n ns' → ns' = ns) ∧
    ((after ops).balloonPlacement? target nudge = none ↔ (after ops).Unplaced target) ∧
    (¬ (after ops).Unplaced target →
      ∃ anchor ns place, (after ops).firstChild? target = some anchor ∧
        (after ops).Chain anchor ns ∧
        (after ops).balloonPlacement? target nudge = some place ∧
        place.left.toInt = clamped ((after ops).leftTotal anchor ns - nudge.left.toInt) ∧
        place.top.toInt = clamped ((after ops).topTotal anchor ns - nudge.top.toInt)) := by
  have h := (linksOpen_after ops).acyclic_offsetParent
  refine ⟨fun n => ⟨_, chain_offsetChain h n, fun ns' hns' => (chain_offsetChain h n).unique hns'⟩,
    ⟨fun hnone => ?_, fun hnone => hnone.balloonPlacement?_eq h nudge⟩,
    fun hplaced => exists_balloonPlacement? h hplaced nudge⟩
  by_contra hplaced
  obtain ⟨-, -, place, -, -, hplace, -⟩ := exists_balloonPlacement? h hplaced nudge
  rw [hnone] at hplace
  cases hplace

end Document

end FormPage
