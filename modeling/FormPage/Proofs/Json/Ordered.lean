import FormPage.Json.Reader
import FormPage.Proofs.Json.Members

/-!
What is read is in order: in every object of a value that was read the keys ascend, whatever the
text gave.
-/

namespace FormPage.Json

variable {j : Json} {cs rest : List Char} {limit : Nat} {negative : Bool} {s : Nat} {e : Int}

/-- In every object of a value the keys ascend. -/
inductive Ordered : Json → Prop
  | null : Ordered .null
  | bool (b : Bool) : Ordered (.bool b)
  | int (n : Int) : Ordered (.int n)
  | float (x : Binary64) : Ordered (.float x)
  | str (s : String) : Ordered (.str s)
  | arr {items : List Json} (h : ∀ x ∈ items, Ordered x) : Ordered (.arr items)
  | obj {members : List (String × Json)} (keys : Ascending members)
      (h : ∀ m ∈ members, Ordered m.2) : Ordered (.obj members)

/-! ### Numbers -/

namespace Number

theorem ordered_ofParts (h : ofParts negative s e = some j) : Ordered j := by
  simp only [ofParts, Option.bind_eq_bind, Option.bind_eq_some_iff] at h
  obtain ⟨a, -, b, -, h⟩ := h
  cases h
  exact .float _

theorem ordered_map_ofParts (h : (ofParts negative s e).map (·, cs) = some (j, rest)) :
    Ordered j := by
  obtain ⟨j', hj', h⟩ := Option.map_eq_some_iff.mp h
  cases h
  exact ordered_ofParts hj'

theorem ordered_of_branches {a b c : Prop} [Decidable a] [Decidable b] [Decidable c]
    {x : Binary64} (h : (if a then none else if b then if c then none else some (.float x, cs)
      else (ofParts negative s e).map (·, cs)) = some (j, rest)) : Ordered j := by
  split at h
  · cases h
  · split at h
    · split at h
      · cases h
      · cases h
        exact .float x
    · exact ordered_map_ofParts h

theorem ordered_readExponent (h : readExponent negative s e cs = some (j, rest)) : Ordered j := by
  simp only [readExponent] at h
  split at h <;> exact ordered_of_branches h

theorem ordered_finish (h : finish negative s e cs = some (j, rest)) : Ordered j := by
  unfold finish at h
  split at h
  · exact ordered_readExponent h
  · exact ordered_readExponent h
  · exact ordered_map_ofParts h

theorem ordered_readFraction (h : readFraction negative s e cs = some (j, rest)) : Ordered j := by
  unfold readFraction at h
  split at h
  · split at h
    · cases h
    · exact ordered_finish h
  · cases h

theorem ordered_readLong (h : readLong negative s cs = some (j, rest)) : Ordered j := by
  unfold readLong at h
  dsimp only at h
  split at h
  · exact ordered_readFraction h
  · exact ordered_finish h

theorem ordered_ofInteger (h : ofInteger negative s = some j) : Ordered j := by
  unfold ofInteger at h
  split at h
  · cases h
    exact .int _
  · split at h
    · cases h
      exact .int _
    · obtain ⟨a, -, h⟩ := Option.map_eq_some_iff.mp h
      cases h
      exact .float _

theorem ordered_readTail (h : readUnsigned.readTail negative s cs = some (j, rest)) :
    Ordered j := by
  unfold readUnsigned.readTail at h
  split at h
  · exact ordered_readFraction h
  · exact ordered_readExponent h
  · exact ordered_readExponent h
  · obtain ⟨j', hj', h⟩ := Option.map_eq_some_iff.mp h
    cases h
    exact ordered_ofInteger hj'

theorem ordered_readUnsigned (h : readUnsigned negative cs = some (j, rest)) : Ordered j := by
  unfold readUnsigned at h
  split at h
  · split at h
    · cases h
    · exact ordered_readTail h
  · exact ordered_readTail h
  · split at h
    · cases h
    · dsimp only at h
      split at h
      · split at h
        · exact ordered_readLong h
        · exact ordered_readTail h
      · exact ordered_readTail h
  · cases h

theorem ordered_read (h : read cs = some (j, rest)) : Ordered j := by
  unfold read at h
  split at h
  · exact ordered_readUnsigned h
  · exact ordered_readUnsigned h

end Number

/-! ### Values -/

section Lists

variable {item : List Char → Option (Json × List Char)}
  (hitem : ∀ {cs j rest}, item cs = some (j, rest) → Ordered j)
include hitem

theorem ordered_readItems {xs : List Json} (h : readItems item limit cs = some (xs, rest)) :
    ∀ x ∈ xs, Ordered x := by
  induction limit generalizing cs xs with
  | zero => cases h
  | succ limit ih =>
    simp only [readItems, Option.bind_eq_bind, Option.bind_eq_some_iff] at h
    obtain ⟨⟨x, tail⟩, hx, h⟩ := h
    split at h
    · simp only [Option.bind_eq_some_iff] at h
      obtain ⟨⟨ys, tail⟩, hys, h⟩ := h
      cases h
      exact List.forall_mem_cons.mpr ⟨hitem hx, ih hys⟩
    · cases h
      exact List.forall_mem_singleton.mpr (hitem hx)
    · cases h

theorem ordered_readMembers {ms : List (String × Json)}
    (h : readMembers item limit cs = some (ms, rest)) : ∀ m ∈ ms, Ordered m.2 := by
  induction limit generalizing cs ms with
  | zero => cases h
  | succ limit ih =>
    rw [readMembers] at h
    split at h
    · simp only [Option.bind_eq_bind, Option.bind_eq_some_iff] at h
      obtain ⟨⟨k, tail⟩, -, h⟩ := h
      split at h
      · simp only [Option.bind_eq_some_iff] at h
        obtain ⟨⟨v, tail⟩, hv, h⟩ := h
        split at h
        · simp only [Option.bind_eq_some_iff] at h
          obtain ⟨⟨ms', tail⟩, hms, h⟩ := h
          cases h
          exact List.forall_mem_cons.mpr ⟨hitem hv, ih hms⟩
        · cases h
          exact List.forall_mem_singleton.mpr (hitem hv)
        · cases h
      · cases h
    · cases h

end Lists

theorem ordered_ofMembers {ms : List (String × Json)} (h : ∀ m ∈ ms, Ordered m.2) :
    Ordered (ofMembers ms) := by
  obtain ⟨ms', heq, hkeys, hmem⟩ := ofMembers_eq ms
  rw [heq]
  exact .obj hkeys fun m hm => h m (hmem m hm)

/-- In every value that was read the keys ascend. -/
theorem ordered_readValue (h : readValue limit cs = some (j, rest)) : Ordered j := by
  induction limit using Nat.strongRecOn generalizing cs j rest with
  | ind limit ih =>
    rw [readValue.eq_def] at h
    split at h
    case h_1 => cases h; exact .null
    case h_2 => cases h; exact .bool true
    case h_3 => cases h; exact .bool false
    case h_4 =>
      obtain ⟨r, -, h⟩ := Option.map_eq_some_iff.mp h
      cases h
      exact .str _
    case h_5 =>
      cases limit with
      | zero => cases h
      | succ limit =>
        dsimp only at h
        split at h
        · cases h
          exact .arr (by simp)
        · obtain ⟨r, hr, h⟩ := Option.map_eq_some_iff.mp h
          cases h
          exact .arr (ordered_readItems (ih limit (Nat.lt_succ_self limit)) hr)
    case h_6 =>
      cases limit with
      | zero => cases h
      | succ limit =>
        dsimp only at h
        split at h
        · cases h
          exact .obj .nil (by simp)
        · obtain ⟨r, hr, h⟩ := Option.map_eq_some_iff.mp h
          cases h
          exact ordered_ofMembers (ordered_readMembers (ih limit (Nat.lt_succ_self limit)) hr)
    case h_7 => exact Number.ordered_read h

theorem ordered_of_parse {text : String} (h : parse? limit text = some j) : Ordered j := by
  simp only [parse?, Option.bind_eq_bind, Option.bind_eq_some_iff] at h
  obtain ⟨⟨j', rest⟩, hread, h⟩ := h
  split at h
  · cases h
    exact ordered_readValue hread
  · cases h

end FormPage.Json
