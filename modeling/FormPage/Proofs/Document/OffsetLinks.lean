import FormPage.Balloon.Placement
import FormPage.Proofs.Document.Nearest
import FormPage.Proofs.Document.Reachable

/-!
The stored links to positioned ancestors. Two writers set them: one sets a single link and refuses
to close a circle, the other computes all of them from the tree, and moves in the tree leave the old
ones behind. Main statement: whatever operations come together, the links never run in a circle
(`offset_links_after`), so that the sums along them that place a balloon come to an end.
-/

namespace FormPage.Document

open Relation

variable {d d' : Document} {n m a : NodeId} {link : Option NodeId}

/-! ### Setting one link -/

/-- The document in which the link of one node is set. -/
def setLink (d : Document) (n : NodeId) (link : Option NodeId) : Document :=
  d.update n fun x => { x with offsetParent := link }

/-- A link is either refused, and nothing is written, or it is the only thing that is written. -/
theorem edit_setOffsetParent (d : Document) (n : NodeId) (link : Option NodeId) :
    (∃ e, d.edit (setOffsetParent n link) = (.error e, d)) ∨
      (d.edit (setOffsetParent n link) = (.ok (), d.setLink n link) ∧ n < d.size ∧
        ∀ a, link = some a → a < d.size ∧ n ∉ d.offsetLinks a) := by
  simp only [edit, setOffsetParent, ExceptT.run, StateT.run]
  by_cases hn : n < d.size
  · rw [contains_iff.mpr hn]
    cases link with
    | none => exact .inr ⟨rfl, hn, fun _ h => by cases h⟩
    | some a =>
      by_cases ha : a < d.size
      · by_cases hm : n ∈ d.offsetLinks a
        · exact .inl ⟨.cycle n, by simp [contains_iff.mpr ha, hm]⟩
        · refine .inr ⟨by simp [contains_iff.mpr ha, hm, setLink], hn, fun b hb => ?_⟩
          cases hb
          exact ⟨ha, hm⟩
      · exact .inl ⟨.unknownNode a, by simp [contains, ha]⟩
  · exact .inl ⟨.unknownNode n, by simp [contains, hn]⟩

/-- Between existing nodes a link is refused exactly if the links lead back. -/
theorem edit_setOffsetParent_of_lt (hn : n < d.size) (ha : a < d.size) :
    d.edit (setOffsetParent n (some a)) =
      if n ∈ d.offsetLinks a then (.error (.cycle n), d) else (.ok (), d.setLink n (some a)) := by
  simp only [edit, setOffsetParent, ExceptT.run, StateT.run, contains_iff.mpr hn,
    contains_iff.mpr ha]
  rfl

/-! ### Links that close no circle -/

/-- A well-formed document whose links to positioned ancestors do not run in a circle. -/
structure LinksOpen (d : Document) : Prop where
  wellFormed : WellFormed d
  irrefl : ∀ n, ¬ TransGen (Step d.offsetLink?) n n

namespace LinksOpen

variable (h : LinksOpen d)
include h

theorem acyclic : Acyclic d.offsetLink? d.size where
  source_lt n a hn := by
    obtain ⟨x, hx, -⟩ := Option.bind_eq_some_iff.mp hn
    exact lt_size_of_node hx
  target_lt := h.wellFormed.link_lt
  irrefl := h.irrefl

theorem mem_offsetLinks : n ∈ d.offsetLinks a ↔ ReflTransGen (Step d.offsetLink?) a n :=
  mem_path_iff h.acyclic

/-- What layouts report are the stored links or none. -/
theorem acyclic_offsetParent : Acyclic d.offsetParent? d.size := by
  have hlinks := h.acyclic
  cases hr : d.reportsOffsets with
  | true =>
    have heq : d.offsetParent? = d.offsetLink? := by
      funext n
      rw [offsetParent?, hr]
      rfl
    rwa [heq]
  | false =>
    have hnone : ∀ n, d.offsetParent? n = none := fun n => by
      rw [offsetParent?, hr]
      rfl
    constructor
    case source_lt => intro n a hn; rw [hnone] at hn; cases hn
    case target_lt => intro n a hn; rw [hnone] at hn; cases hn
    case irrefl =>
      intro n hn
      obtain ⟨b, hb, -⟩ := TransGen.head'_iff.mp hn
      rw [Step, hnone] at hb
      cases hb

omit h

/-- A document with the same links. -/
theorem of_same (h : LinksOpen d) (hd : WellFormed d')
    (hlink : ∀ n, d'.offsetLink? n = d.offsetLink? n) : LinksOpen d' :=
  ⟨hd, by rw [funext hlink]; exact h.irrefl⟩

/-- Every link of a fresh layout leads upwards in the tree. -/
theorem relayout (h : WellFormed d) : LinksOpen d.relayout :=
  ⟨h.relayout, by rw [funext (offsetLink?_relayout d)]; exact h.acyclic_layoutParent.irrefl⟩

/-- A link to a node from which the links do not lead back. -/
theorem setLink (h : LinksOpen d) (hn : n < d.size)
    (hlink : ∀ a, link = some a → a < d.size ∧ n ∉ d.offsetLinks a) :
    LinksOpen (d.setLink n link) :=
  ⟨h.wellFormed.setLink hn fun a ha => (hlink a ha).1,
    irrefl_of_redirect (fun _ => offsetLink?_setLink hn link) h.irrefl fun a ha hr =>
      (hlink a ha).2 (h.mem_offsetLinks.mpr hr)⟩

end LinksOpen

theorem linksOpen_empty : LinksOpen empty := by
  refine ⟨wellFormed_empty, fun n hn => ?_⟩
  obtain ⟨b, hb, -⟩ := TransGen.head'_iff.mp hn
  have hnone : empty.offsetLink? n = none := by
    rcases n with _ | _ | n <;> simp [offsetLink?, node?, empty]
  rw [Step, hnone] at hb
  cases hb

theorem offsetLink?_push_of_none {x : Node} (hx : x.offsetParent = none) (n : NodeId) :
    (d.push x).offsetLink? n = d.offsetLink? n := by
  rw [offsetLink?_push, hx]
  split
  · rename_i hn
    rw [offsetLink?, node?_eq_none_iff.mpr (Nat.le_of_eq hn.symm)]; rfl
  · rfl

/-- No call closes a circle of links. -/
theorem linksOpen_kept : Kept LinksOpen := by
  intro k d h
  have hwf := k.run_wellFormed h.wellFormed
  cases k with
  | createElement tag => exact h.of_same hwf (offsetLink?_push_of_none rfl)
  | createText text => exact h.of_same hwf (offsetLink?_push_of_none rfl)
  | appendChild p c =>
    refine h.of_same hwf fun n => ?_
    simp only [Call.run, edit, appendChild, ExceptT.run, StateT.run]
    split
    · rfl
    · rw [offsetLink?_link, offsetLink?_detach]
  | insertBefore p c r =>
    refine h.of_same hwf fun n => ?_
    simp only [Call.run, edit, insertBefore, ExceptT.run, StateT.run]
    split
    · rfl
    · split
      · rfl
      · split
        · rfl
        · split
          · rw [offsetLink?_link, offsetLink?_detach]
          · exact offsetLink?_detach d c n
  | removeChild p c =>
    refine h.of_same hwf fun n => ?_
    simp only [Call.run, edit, removeChild, ExceptT.run, StateT.run]
    split
    · rfl
    · exact offsetLink?_detach d c n
  | setAttribute n name value =>
    refine h.of_same hwf fun m => ?_
    simp only [Call.run, edit, setAttribute, ExceptT.run, StateT.run]
    split
    · rfl
    · rfl
    · exact offsetLink?_update fun _ => rfl
  | setGeometry n box =>
    refine h.of_same hwf fun m => ?_
    simp only [Call.run, edit, setGeometry, ExceptT.run, StateT.run]
    split
    · exact offsetLink?_update fun _ => rfl
    · rfl
  | setOffsetParent n link =>
    rw [Call.run]
    rcases edit_setOffsetParent d n link with ⟨e, he⟩ | ⟨hok, hn, hlink⟩
    · rw [he]; exact h
    · rw [hok]; exact h.setLink hn hlink
  | relayout => exact LinksOpen.relayout h.wellFormed
  | updateStyle n f => exact h.of_same hwf fun _ => offsetLink?_update fun _ => rfl
  | withOffsets reported => exact h.of_same hwf fun _ => rfl

theorem linksOpen_after (ops : List Operation) : LinksOpen (after ops) :=
  run_all_kept linksOpen_kept ops linksOpen_empty

/-! ### Sums along the links -/

/-- A corner moved by the offsets of a box, if both sums fit 32 bits. -/
def moved? (corner : Placement) (box : BoxGeometry) : Option Placement := do
  let left ← addOffset corner.left box.left
  let top ← addOffset corner.top box.top
  return ⟨left, top⟩

/-- The rule by which a corner is summed up: the offsets of a node are added, then those of its
positioned ancestor, until there is none; a sum that leaves the range ends it without a corner. -/
inductive Gathers (d : Document) : Option NodeId → Placement → Option Placement → Prop
  | stop {corner : Placement} : Gathers d none corner (some corner)
  | leave {n : NodeId} {corner : Placement} (h : moved? corner (d.box n) = none) :
    Gathers d (some n) corner none
  | next {n : NodeId} {corner corner' : Placement} {answer : Option Placement}
      (h : moved? corner (d.box n) = some corner')
      (hnext : Gathers d (d.offsetParent? n) corner' answer) : Gathers d (some n) corner answer

theorem Gathers.unique {start : Option NodeId} {corner : Placement}
    {answer answer' : Option Placement} (h : Gathers d start corner answer)
    (h' : Gathers d start corner answer') : answer = answer' := by
  induction h with
  | stop => cases h'; rfl
  | leave h =>
    cases h' with
    | leave => rfl
    | next h' => rw [h] at h'; cases h'
  | next h _ ih =>
    cases h' with
    | leave h' => rw [h] at h'; cases h'
    | next h' hnext =>
      rw [h] at h'
      cases h'
      exact ih hnext

/-- The corner that the offsets of a list of nodes give. -/
def gathered? (d : Document) (corner : Placement) (ns : List NodeId) : Option Placement := do
  let left ← sumOffsets corner.left ((ns.map d.box).map (·.left))
  let top ← sumOffsets corner.top ((ns.map d.box).map (·.top))
  return ⟨left, top⟩

theorem gathered?_cons (d : Document) (corner : Placement) (n : NodeId) (ns : List NodeId) :
    d.gathered? corner (n :: ns) = (moved? corner (d.box n)).bind fun c => d.gathered? c ns := by
  simp only [gathered?, sumOffsets, moved?, List.map_cons, List.foldlM_cons, Option.bind_eq_bind]
  cases addOffset corner.left (d.box n).left with
  | none => rfl
  | some left =>
    cases addOffset corner.top (d.box n).top with
    | none =>
      simp only [Option.bind_some, Option.bind_none]
      cases List.foldlM addOffset left ((ns.map d.box).map (·.left)) <;> rfl
    | some top => rfl

/-- Where the links close no circle, the sums along them end: they are those along the walk. -/
theorem gathers_gathered (h : Acyclic d.offsetParent? d.size) (corner : Placement)
    (start : Option NodeId) :
    Gathers d start corner (d.gathered? corner (d.path d.offsetParent? start)) := by
  have hsome : ∀ n corner,
      Gathers d (some n) corner (d.gathered? corner (d.path d.offsetParent? (some n))) := by
    refine step_induction h fun n ih corner => ?_
    rw [path_some h, gathered?_cons]
    cases hmoved : moved? corner (d.box n) with
    | none => exact .leave hmoved
    | some corner' =>
      refine .next hmoved ?_
      cases hn : d.offsetParent? n with
      | none => rw [path_none]; exact .stop
      | some m => exact ih m hn corner'
  cases start with
  | none => rw [path_none]; exact .stop
  | some n => exact hsome n corner

/-- The corner at which the sums for a node start: the size of its box. -/
def firstCorner (d : Document) (anchor : NodeId) : Placement :=
  ⟨(d.box anchor).width, (d.box anchor).height⟩

/-- The rule by which a balloon is placed: nowhere if the target has no child or the child no
positioned ancestor, else at the summed corner, shifted back. -/
inductive Places (d : Document) (target : NodeId) (nudge : Nudge) : Option Placement → Prop
  | unanchored (h : d.firstChild? target = none) : Places d target nudge none
  | unlinked {anchor : NodeId} (h : d.firstChild? target = some anchor)
    (hlink : d.offsetParent? anchor = none) : Places d target nudge none
  | summed {anchor a : NodeId} {corner : Option Placement} (h : d.firstChild? target = some anchor)
      (hlink : d.offsetParent? anchor = some a)
      (hsum : Gathers d (some anchor) (d.firstCorner anchor) corner) :
    Places d target nudge
      (corner.map fun c => ⟨shiftBack c.left nudge.left, shiftBack c.top nudge.top⟩)

theorem Places.unique {target : NodeId} {nudge : Nudge} {answer answer' : Option Placement}
    (h : Places d target nudge answer) (h' : Places d target nudge answer') : answer = answer' := by
  cases h with
  | unanchored h =>
    cases h' with
    | unanchored => rfl
    | unlinked h' | summed h' => cases h.symm.trans h'
  | unlinked h hlink =>
    cases h' with
    | unanchored h' => cases h.symm.trans h'
    | unlinked => rfl
    | summed h' hlink' =>
      obtain rfl := Option.some.inj (h.symm.trans h')
      cases hlink.symm.trans hlink'
  | summed h hlink hsum =>
    cases h' with
    | unanchored h' => cases h.symm.trans h'
    | unlinked h' hlink' =>
      obtain rfl := Option.some.inj (h.symm.trans h')
      cases hlink.symm.trans hlink'
    | summed h' _ hsum' =>
      obtain rfl := Option.some.inj (h.symm.trans h')
      rw [hsum.unique hsum']

/-- Where the links close no circle, the rule places every balloon, where the listed walk does. -/
theorem places_balloonPlacement (h : Acyclic d.offsetParent? d.size) (target : NodeId)
    (nudge : Nudge) : Places d target nudge (d.balloonPlacement? target nudge) := by
  rw [balloonPlacement?]
  cases hanchor : d.firstChild? target with
  | none => exact .unanchored hanchor
  | some anchor =>
    cases hlink : d.offsetParent? anchor with
    | none =>
      simp only [Option.bind_eq_bind, Option.bind_some, hlink, Option.bind_none]
      exact .unlinked hanchor hlink
    | some a =>
      have hsum : Places d target nudge _ := .summed hanchor hlink
        (gathers_gathered h (d.firstCorner anchor) (some anchor))
      convert hsum using 1
      simp only [Option.bind_eq_bind, Option.bind_some, hlink, gathered?, firstCorner, offsetChain]
      cases sumOffsets _ _ <;> [rfl; cases sumOffsets _ _ <;> rfl]

/-! ### The links after any operations -/

/-- After any operations the links close no circle; the rule that places a balloon, which sets no
limit to its sums, ends for every target, with the answer of the listed walk. A link between
existing nodes is refused exactly if the node is reached from the ancestor along the links; what is
refused changes nothing, and what is set changes the link of the node and nothing else. -/
theorem offset_links_after (ops : List Operation) :
    (∀ n, ¬ TransGen (Step (after ops).offsetLink?) n n) ∧
      (∀ target nudge answer, Places (after ops) target nudge answer ↔
        (after ops).balloonPlacement? target nudge = answer) ∧
      (∀ n < (after ops).size, ∀ a < (after ops).size,
        (((after ops).edit (setOffsetParent n (some a))).1 = .error (.cycle n) ↔
          ReflTransGen (Step (after ops).offsetLink?) a n) ∧
        (((after ops).edit (setOffsetParent n (some a))).1 = .ok () ↔
          ¬ ReflTransGen (Step (after ops).offsetLink?) a n)) ∧
      (∀ n link e, ((after ops).edit (setOffsetParent n link)).1 = .error e →
        ((after ops).edit (setOffsetParent n link)).2 = after ops) ∧
      ∀ n link, ((after ops).edit (setOffsetParent n link)).1 = .ok () →
        ((after ops).edit (setOffsetParent n link)).2.reportsOffsets =
            (after ops).reportsOffsets ∧
          ∀ m, ((after ops).edit (setOffsetParent n link)).2.node? m =
            if m = n then ((after ops).node? m).map fun x => { x with offsetParent := link }
            else (after ops).node? m := by
  have h := linksOpen_after ops
  generalize after ops = d at h
  refine ⟨h.irrefl, fun target nudge answer => ?_, fun n hn a ha => ?_, fun n link e he => ?_,
    fun n link hok => ?_⟩
  · have hrule := places_balloonPlacement h.acyclic_offsetParent target nudge
    exact ⟨fun hanswer => hrule.unique hanswer, fun hanswer => hanswer ▸ hrule⟩
  · rw [edit_setOffsetParent_of_lt hn ha, ← h.mem_offsetLinks]
    by_cases hm : n ∈ d.offsetLinks a <;> simp [hm]
  · rcases edit_setOffsetParent d n link with ⟨e', he'⟩ | ⟨hok, -⟩
    · rw [he']
    · rw [hok] at he; cases he
  · rcases edit_setOffsetParent d n link with ⟨e', he'⟩ | ⟨hok', -⟩
    · rw [he'] at hok; cases hok
    · rw [hok']
      refine ⟨rfl, fun m => ?_⟩
      rw [setLink, node?_update]
      simp only [eq_comm]

end FormPage.Document
