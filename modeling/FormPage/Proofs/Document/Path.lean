import FormPage.Document.Walk
import Mathlib.Data.List.Perm.Subperm
import Mathlib.Logic.Relation

/-!
Paths along steps that never run in a circle. A path is cut off after as many nodes as the document
has, and one more; where the steps stay inside the document and close no circle the cut is never
felt, so that a path goes on exactly as its steps do (`path_some`) and meets exactly what they reach
(`mem_path_iff`).
-/

namespace FormPage.Document

open Relation

/-- `next` leads from `a` to `b`. -/
def Step (next : NodeId → Option NodeId) (a b : NodeId) : Prop := next a = some b

/-- Steps between indices below `size` that close no circle. -/
structure Acyclic (next : NodeId → Option NodeId) (size : Nat) : Prop where
  source_lt : ∀ a b, next a = some b → a < size
  target_lt : ∀ a b, next a = some b → b < size
  irrefl : ∀ n, ¬ TransGen (Step next) n n

variable {next : NodeId → Option NodeId} {size : Nat} {d : Document} {m n : NodeId}

theorem step_unique {a b c : NodeId} (hb : Step next a b) (hc : Step next a c) : b = c :=
  Option.some.inj (hb.symm.trans hc)

/-- Of two nodes reached from one, one is reached from the other. -/
theorem reaches_total {a b c : NodeId} (hb : ReflTransGen (Step next) a b)
    (hc : ReflTransGen (Step next) a c) :
    ReflTransGen (Step next) b c ∨ ReflTransGen (Step next) c b :=
  ReflTransGen.total_of_right_unique (fun _ _ _ => step_unique) hb hc

/-! ### What a walk meets -/

theorem reaches_of_mem_follow : ∀ {k : Nat} {n : NodeId},
    m ∈ follow next k (some n) → ReflTransGen (Step next) n m
  | k + 1, n, h => by
    rcases List.mem_cons.mp h with rfl | h
    · exact .refl
    · cases hn : next n with
      | none => rw [hn] at h; cases k <;> simp [follow] at h
      | some b => rw [hn] at h; exact .head hn (reaches_of_mem_follow h)

theorem follow_none (k : Nat) : follow next k none = [] := by cases k <;> rfl

/-- A walk that ended before its limit does not change with the limit. -/
theorem follow_succ : ∀ {k : Nat} {s : Option NodeId}, (follow next k s).length < k →
    follow next (k + 1) s = follow next k s
  | k + 1, none, _ => rfl
  | k + 1, some n, h => by
    have hlen : (follow next k (next n)).length < k := by simpa [follow] using h
    rw [follow, follow, follow_succ hlen]

variable (h : Acyclic next size)
include h

theorem Acyclic.nodup_follow : ∀ (k : Nat) (s : Option NodeId), (follow next k s).Nodup
  | 0, _ => List.nodup_nil
  | _ + 1, none => List.nodup_nil
  | k + 1, some n => by
    refine List.nodup_cons.mpr ⟨fun hm => ?_, Acyclic.nodup_follow k (next n)⟩
    cases hn : next n with
    | none => rw [hn, follow_none] at hm; cases hm
    | some b =>
      rw [hn] at hm
      exact h.irrefl n (TransGen.head' hn (reaches_of_mem_follow hm))

theorem Acyclic.lt_of_reaches {a b : NodeId} (ha : a < size) (hr : ReflTransGen (Step next) a b) :
    b < size := by
  induction hr with
  | refl => exact ha
  | tail _ hs _ => exact h.target_lt _ _ hs

theorem Acyclic.length_follow_le {k : Nat} (hn : n < size) :
    (follow next k (some n)).length ≤ size := by
  have hsub : follow next k (some n) ⊆ List.range size := fun m hm =>
    List.mem_range.mpr (h.lt_of_reaches hn (reaches_of_mem_follow hm))
  simpa using ((h.nodup_follow k (some n)).subperm hsub).length_le

omit h

theorem path_none (d : Document) (next : NodeId → Option NodeId) : d.path next none = [] :=
  follow_none _

/-- A path goes on as its steps do. -/
theorem path_some (h : Acyclic next d.size) (n : NodeId) :
    d.path next (some n) = n :: d.path next (next n) := by
  rw [path, path, follow]
  congr 1
  cases hn : next n with
  | none => rw [follow_none, follow_none]
  | some b =>
    have hlen : (n :: follow next d.size (some b)).length ≤ d.size := by
      have h' := h.length_follow_le (k := d.size + 1) (h.source_lt _ _ hn)
      rwa [follow, hn] at h'
    exact (follow_succ hlen).symm

/-- A path meets exactly what its steps reach. -/
theorem mem_path_iff (h : Acyclic next d.size) :
    m ∈ d.path next (some n) ↔ ReflTransGen (Step next) n m := by
  refine ⟨reaches_of_mem_follow, fun hr => ?_⟩
  induction hr using ReflTransGen.head_induction_on with
  | refl => rw [path_some h]; exact List.mem_cons_self
  | head hs _ ih => rw [path_some h, show next _ = some _ from hs]; exact List.mem_cons_of_mem _ ih

theorem length_path_le (h : Acyclic next d.size) (hn : n < d.size) :
    (d.path next (some n)).length ≤ d.size :=
  h.length_follow_le hn

/-- Steps that lead to earlier indices close no circle. -/
theorem irrefl_of_lt (h : ∀ a b, next a = some b → b < a) (n : NodeId) :
    ¬ TransGen (Step next) n n := by
  have hlt : ∀ m, TransGen (Step next) n m → m < n := by
    intro m hm
    induction hm with
    | single hs => exact h _ _ hs
    | tail _ hs ih => exact Nat.lt_trans (h _ _ hs) ih
  exact fun hn => Nat.lt_irrefl n (hlt n hn)

/-! ### Redirecting one step -/

section Redirect

variable {next' : NodeId → Option NodeId} {c : NodeId} {link : Option NodeId}
  (hnext : ∀ m, next' m = if m = c then link else next m)
include hnext

/-- Once the step from one node is redirected, a node is reached as before or through its target. -/
theorem reaches_of_redirect {a b : NodeId} (hr : ReflTransGen (Step next') a b) :
    ReflTransGen (Step next) a b ∨
      (ReflTransGen (Step next) a c ∧ ∃ p, link = some p ∧ ReflTransGen (Step next) p b) := by
  induction hr with
  | refl => exact .inl .refl
  | @tail x y _ hs ih =>
    rw [Step, hnext] at hs
    split at hs
    · rename_i hx
      subst hx
      rcases ih with ih | ⟨ih, -⟩
      · exact .inr ⟨ih, y, hs, .refl⟩
      · exact .inr ⟨ih, y, hs, .refl⟩
    · rcases ih with ih | ⟨ih, p, hp, ih'⟩
      · exact .inl (ih.tail hs)
      · exact .inr ⟨ih, p, hp, ih'.tail hs⟩

/-- A redirected step closes no circle if its target does not lead back to where it starts. -/
theorem irrefl_of_redirect (hopen : ∀ n, ¬ TransGen (Step next) n n)
    (hlink : ∀ p, link = some p → ¬ ReflTransGen (Step next) p c) (n : NodeId) :
    ¬ TransGen (Step next') n n := by
  intro hn
  obtain ⟨b, hb, hr⟩ := TransGen.head'_iff.mp hn
  rw [Step, hnext] at hb
  -- a circle through the redirected step would lead from its target back to its start
  split at hb
  · rename_i hnc
    subst hnc
    rcases reaches_of_redirect hnext hr with hr | ⟨hr, -⟩ <;> exact hlink b hb hr
  · rcases reaches_of_redirect hnext hr with hr | ⟨hr, p, hp, hr'⟩
    · exact hopen n (TransGen.head' hb hr)
    · exact hlink p hp (hr'.trans (.head hb hr))

end Redirect

/-! ### Heights -/

/-- How many nodes lie on the path from a node. -/
def height (d : Document) (next : NodeId → Option NodeId) (n : NodeId) : Nat :=
  (d.path next (some n)).length

theorem height_of_step (h : Acyclic next d.size) (hs : next n = some m) :
    d.height next n = d.height next m + 1 := by
  rw [height, path_some h, hs]; rfl

theorem height_pos (h : Acyclic next d.size) (n : NodeId) : 0 < d.height next n := by
  rw [height, path_some h]; exact Nat.succ_pos _

theorem height_le (h : Acyclic next d.size) (hn : n < d.size) : d.height next n ≤ d.size :=
  length_path_le h hn

/-- What holds of a node as soon as it holds of the next one holds of all. -/
theorem step_induction (h : Acyclic next d.size) {P : NodeId → Prop}
    (hP : ∀ n, (∀ m, next n = some m → P m) → P n) (n : NodeId) : P n := by
  induction hk : d.height next n using Nat.strongRecOn generalizing n with
  | ind k ih =>
    refine hP n fun m hm => ih (d.height next m) ?_ m rfl
    have := height_of_step h hm
    omega

/-! ### Trails -/

/-- From a start on the steps lead through the nodes of a list, one after the other, and then end:
a path to which no limit is set. -/
inductive Trail (next : NodeId → Option NodeId) : Option NodeId → List NodeId → Prop
  | stop : Trail next none []
  | step {n : NodeId} {ns : List NodeId} (h : Trail next (next n) ns) :
    Trail next (some n) (n :: ns)

theorem Trail.follow_eq {start : Option NodeId} {ns : List NodeId} (h : Trail next start ns) :
    ∀ {k : Nat}, ns.length ≤ k → follow next k start = ns := by
  induction h with
  | stop => exact fun _ => follow_none _
  | step _ ih =>
    intro k hk
    obtain ⟨k, rfl⟩ := Nat.exists_eq_add_of_le' (Nat.le_trans (Nat.le_add_left 1 _) hk)
    rw [follow, ih (Nat.le_of_succ_le_succ hk)]

/-- A trail that meets no more nodes than there are is the path. -/
theorem Trail.path_eq {start : Option NodeId} {ns : List NodeId} (h : Trail next start ns)
    (hlen : ns.length ≤ d.size) : d.path next start = ns :=
  h.follow_eq (Nat.le_succ_of_le hlen)

/-- Where the steps close no circle, the path is the trail. -/
theorem trail_path (h : Acyclic next d.size) (n : NodeId) :
    Trail next (some n) (d.path next (some n)) := by
  induction n using step_induction h with
  | hP n ih =>
    rw [path_some h]
    refine .step ?_
    cases hn : next n with
    | none => rw [path_none]; exact .stop
    | some m => exact ih m hn

/-! ### Searches along a path -/

/-- Of two nodes at most one is reached from the other, unless they are the same. -/
theorem Acyclic.antisymm (h : Acyclic next size) {a b : NodeId}
    (hab : ReflTransGen (Step next) a b) (hba : ReflTransGen (Step next) b a) : a = b := by
  rcases reflTransGen_iff_eq_or_transGen.mp hab with rfl | hab
  · rfl
  · exact absurd (hab.trans_left hba) (h.irrefl a)

/-- A search along a path finds the first match: every other one is reached from it. -/
theorem find?_path_eq_some (h : Acyclic next d.size) {P : NodeId → Bool} {a : NodeId} :
    ∀ n, (d.path next (some n)).find? P = some a ↔ ReflTransGen (Step next) n a ∧ P a = true ∧
      ∀ m, ReflTransGen (Step next) n m → P m = true → ReflTransGen (Step next) a m := by
  refine step_induction h fun n ih => ?_
  rw [path_some h, List.find?_cons]
  cases hn : P n with
  | true =>
    constructor
    · intro ha
      obtain rfl := Option.some.inj ha
      exact ⟨.refl, hn, fun _ hm _ => hm⟩
    · rintro ⟨hna, -, hfirst⟩
      exact congrArg some (h.antisymm hna (hfirst n .refl hn))
  | false =>
    have hskip : ∀ m, P m = true → (ReflTransGen (Step next) n m ↔
        ∃ k, next n = some k ∧ ReflTransGen (Step next) k m) := fun m hm => by
      refine ⟨fun hr => ?_, fun ⟨k, hk, hr⟩ => .head hk hr⟩
      rcases hr.cases_head with rfl | hr
      · rw [hn] at hm; cases hm
      · exact hr
    cases hk : next n with
    | none =>
      rw [path_none]
      refine ⟨nofun, fun ⟨hna, ha, _⟩ => ?_⟩
      obtain ⟨k, hk', -⟩ := (hskip a ha).mp hna
      rw [hk] at hk'
      cases hk'
    | some k =>
      have hstep : ∀ m, P m = true →
          (ReflTransGen (Step next) n m ↔ ReflTransGen (Step next) k m) := fun m hm => by
        rw [hskip m hm, hk]
        simp
      refine (ih k hk).trans ⟨fun ⟨hka, ha, hfirst⟩ => ?_, fun ⟨hna, ha, hfirst⟩ => ?_⟩
      · exact ⟨(hstep a ha).mpr hka, ha, fun m hm hPm => hfirst m ((hstep m hPm).mp hm) hPm⟩
      · exact ⟨(hstep a ha).mp hna, ha, fun m hm hPm => hfirst m ((hstep m hPm).mpr hm) hPm⟩

end FormPage.Document
