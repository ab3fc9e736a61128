import FormPage.Proofs.Json.Levels
import FormPage.Proofs.Json.Ordered
import FormPage.Proofs.PageSpec.Normal
import FormPage.Proofs.PageSpec.RoundTrip

/-!
Descriptions that fit a number of levels. What is read from a value whose keys ascend has attributes
and handlers in the order of their keys, and takes no more levels than the value. Its normal form
takes at most two more, and with these two there is also room for a region in every element with
attributes.
-/

namespace FormPage

open Decode

/-! ### Reading step by step -/

namespace Decode

variable {α β σ : Type}

theorem exists_of_bind_ok {r : Decoded α} {f : α → Decoded β} {b : β} (h : r >>= f = .ok b) :
    ∃ a, r = .ok a ∧ f a = .ok b := by
  cases r with
  | error cause => cases h
  | ok a => exact ⟨a, rfl, h⟩

theorem exists_of_map_ok {r : Decoded α} {f : α → β} {b : β} (h : r.map f = .ok b) :
    ∃ a, r = .ok a ∧ f a = b := by
  cases r with
  | error cause => cases h
  | ok a => exact ⟨a, rfl, Except.ok.inj h⟩

/-- What every step keeps is kept by reading all members. -/
theorem kept_of_foldlM {step : σ → α → Decoded σ} {P : σ → Prop} {ms : List α} {st st' : σ}
    (hstep : ∀ m ∈ ms, ∀ {st st'}, P st → step st m = .ok st' → P st') (hst : P st)
    (h : ms.foldlM step st = .ok st') : P st' := by
  induction ms generalizing st with
  | nil =>
    cases h
    exact hst
  | cons m ms ih =>
    rw [List.foldlM_cons] at h
    obtain ⟨st₁, hread, h⟩ := exists_of_bind_ok h
    exact ih (fun m hm => hstep m (List.mem_cons_of_mem _ hm))
      (hstep m List.mem_cons_self hst hread) h

end Decode

/-! ### Maps in the order of their keys -/

namespace OrderedMap

variable {κ ν : Type}

/-- The names of the keys. -/
def names (name : κ → String) (m : OrderedMap κ ν) : List String := m.entries.map fun e => name e.1

/-- The names of the keys ascend. -/
def Ascending (name : κ → String) (m : OrderedMap κ ν) : Prop := (m.names name).Pairwise (· < ·)

variable [DecidableEq κ] {name : κ → String}

omit [DecidableEq κ] in
theorem ascending_empty : (∅ : OrderedMap κ ν).Ascending name := List.Pairwise.nil

theorem names_insert_of_last {m : OrderedMap κ ν} {k : κ} (v : ν)
    (h : ∀ s ∈ m.names name, s < name k) :
    (m.insert k v).names name = m.names name ++ [name k] := by
  have hk : k ∉ m.entries.map Prod.fst := by
    intro hmem
    obtain ⟨e, he, rfl⟩ := List.mem_map.mp hmem
    exact lt_irrefl _ (h (name e.1) (List.mem_map_of_mem he))
  rw [names, names, insert]
  simp only [put_of_not_mem hk, List.map_append, List.map_cons, List.map_nil]

/-- A map that is read from members whose keys ascend has these keys. -/
theorem names_of_foldlM {step : OrderedMap κ ν → String × Json → Decoded (OrderedMap κ ν)}
    (hstep : ∀ {m e m'}, step m e = .ok m' → ∃ k v, name k = e.1 ∧ m' = m.insert k v)
    {ms : List (String × Json)} {m m' : OrderedMap κ ν} (h : ms.foldlM step m = .ok m')
    (hkeys : (m.names name ++ ms.map Prod.fst).Pairwise (· < ·)) :
    m'.names name = m.names name ++ ms.map Prod.fst := by
  induction ms generalizing m with
  | nil =>
    cases h
    simp
  | cons e ms ih =>
    rw [List.foldlM_cons] at h
    obtain ⟨m₁, hread, h⟩ := exists_of_bind_ok h
    obtain ⟨k, v, hk, rfl⟩ := hstep hread
    have hlast : ∀ s ∈ m.names name, s < name k := by
      intro s hs
      exact hk ▸ (List.pairwise_append.mp hkeys).2.2 s hs e.1 List.mem_cons_self
    have hnames : (m.insert k v).names name = m.names name ++ [e.1] := by
      rw [names_insert_of_last v hlast, hk]
    have hsplit : m.names name ++ (e :: ms).map Prod.fst =
        (m.insert k v).names name ++ ms.map Prod.fst := by
      simp [hnames]
    rw [hsplit] at hkeys ⊢
    exact ih h hkeys

theorem ascending_of_foldlM {step : OrderedMap κ ν → String × Json → Decoded (OrderedMap κ ν)}
    (hstep : ∀ {m e m'}, step m e = .ok m' → ∃ k v, name k = e.1 ∧ m' = m.insert k v)
    {ms : List (String × Json)} (hms : Json.Ascending ms) {m : OrderedMap κ ν}
    (h : ms.foldlM step ∅ = .ok m) : m.Ascending name ∧ (ms = [] → m = ∅) := by
  have hnames : m.names name = ms.map Prod.fst := names_of_foldlM hstep h hms
  refine ⟨?_, ?_⟩
  · rw [Ascending, hnames]
    exact hms
  · rintro rfl
    exact (Except.ok.inj h).symm

end OrderedMap

/-! ### What reading gives -/

namespace Decode

variable {α σ : Type}

/-- A record is read from a value with at least one level. -/
theorem Record.levels_pos {r : Record σ α} {j : Json} {a : α} (h : r.decode j = .ok a) :
    0 < j.levels := by
  cases j with
  | obj | arr => rw [Json.levels]; exact Nat.succ_pos _
  | null | bool | int | float | str => cases h

theorem Record.levels_pos_of_optional {r : Record σ α} {j : Json} {a : α}
    (h : Decode.optional r.decode j = .ok (some a)) : 0 < j.levels := by
  cases j with
  | obj | arr => rw [Json.levels]; exact Nat.succ_pos _
  | null | bool | int | float | str => cases h

theorem ascending_attributes {j : Json} {m : OrderedMap String String} (hj : j.Ordered)
    (h : attributes j = .ok m) : m.Ascending id ∧ 0 < j.levels := by
  cases hj with
  | obj hkeys =>
    constructor
    · refine (OrderedMap.ascending_of_foldlM ?_ hkeys h).1
      intro m e m' hread
      obtain ⟨v, -, rfl⟩ := exists_of_map_ok hread
      exact ⟨e.1, v, rfl, rfl⟩
    · rw [Json.levels]
      exact Nat.succ_pos _
  | null | bool | int | float | str | arr => cases h

theorem name_of_named {all : List α} {name : α → String} {s : String} {a : α}
    (h : named all name s = .ok a) : name a = s := by
  rw [named] at h
  split at h
  · rename_i found hfound
    cases h
    simpa using List.find?_some hfound
  · cases h

theorem levels_pos_of_action {j : Json} {a : Action} (h : Action.decode j = .ok a) :
    0 < j.levels := by
  cases j with
  | obj | arr => rw [Json.levels]; exact Nat.succ_pos _
  | null | bool | int | float | str => cases h

theorem of_handler_ok {m m' : OrderedMap Event Action} {e : String × Json}
    (h : handler m e = .ok m') : ∃ event action, Event.name event = e.1 ∧
      Action.decode e.2 = .ok action ∧ m' = m.insert event action := by
  rw [handler] at h
  obtain ⟨event, hevent, h⟩ := exists_of_bind_ok h
  obtain ⟨action, haction, h⟩ := exists_of_bind_ok h
  exact ⟨event, action, name_of_named hevent, haction, (Except.ok.inj h).symm⟩

theorem ascending_handlers {j : Json} {m : OrderedMap Event Action} (hj : j.Ordered)
    (h : handlers j = .ok m) :
    m.Ascending Event.name ∧ (m.isEmpty = false → 2 ≤ j.levels) := by
  cases hj with
  | @obj ms hkeys =>
    have hfold : ms.foldlM handler ∅ = .ok m := h
    have hnames : m.Ascending Event.name ∧ (ms = [] → m = ∅) := by
      refine OrderedMap.ascending_of_foldlM ?_ hkeys hfold
      intro m e m' hread
      obtain ⟨event, action, hname, -, hinsert⟩ := of_handler_ok hread
      exact ⟨event, action, hname, hinsert⟩
    refine ⟨hnames.1, ?_⟩
    intro hne
    cases ms with
    | nil =>
      rw [hnames.2 rfl] at hne
      cases hne
    | cons e ms =>
      -- the first handler is an action, which takes a level of its own
      rw [List.foldlM_cons] at hfold
      obtain ⟨m₁, hread, -⟩ := exists_of_bind_ok hfold
      obtain ⟨event, action, -, haction, -⟩ := of_handler_ok hread
      have hpos := levels_pos_of_action haction
      by_contra hlevels
      have hflat : (Json.obj (e :: ms)).levels ≤ 0 + 1 := by omega
      have hle := Json.levels_obj_le.mp hflat e List.mem_cons_self
      omega
  | null | bool | int | float | str | arr => cases h

end Decode

/-! ### Descriptions within levels -/

namespace NodeSpec

/-- What a node itself takes within `k` levels below its own: its maps are in the order of their
keys, and an element with attributes leaves room for `spare` levels in all. -/
structure Slim (spare k : Nat) (s : NodeSpec) : Prop where
  attributes : s.attributes.Ascending id
  on : s.on.Ascending Event.name
  attributes_le : s.attributes.isEmpty = false → 1 ≤ k ∧ spare ≤ k + 1
  on_le : s.on.isEmpty = false → 2 ≤ k
  style_le : s.style.isDefault = false → 1 ≤ k
  geometry_le : s.geometry ≠ none → 1 ≤ k

/-- The description of a node and of all below it fits a number of levels. -/
inductive Fits (spare : Nat) : Nat → NodeSpec → Prop
  | mk {k : Nat} {s : NodeSpec} (top : s.Slim spare k) (below : s.children ≠ [] → 0 < k)
      (children : ∀ c ∈ s.children, Fits spare (k - 1) c) : Fits spare (k + 1) s

/-- The descriptions of nodes fit an array of a number of levels. -/
def FitsAll (spare k : Nat) (ss : List NodeSpec) : Prop :=
  (ss ≠ [] → 0 < k) ∧ ∀ c ∈ ss, Fits spare (k - 1) c

theorem slim_default (spare k : Nat) : (default : NodeSpec).Slim spare k where
  attributes := OrderedMap.ascending_empty
  on := OrderedMap.ascending_empty
  attributes_le h := by cases h
  on_le h := by cases h
  style_le h := by cases h
  geometry_le h := absurd rfl h

theorem decodeItems_eq_foldlM : ∀ (ks : List String) (vs : List Json) (d : Draft),
    decodeItems ks vs d = (ks.zip vs).foldlM decodeMember d
  | [], _, _ | _ :: _, [], _ => by simp [decodeItems]; rfl
  | k :: ks, v :: vs, d => by
    rw [decodeItems, List.zip_cons_cons, List.foldlM_cons, decodeMember]
    simp only
    split
    · exact bind_congr (decodeItems_eq_foldlM ks vs)
    · exact bind_congr (decodeItems_eq_foldlM ks vs)

/-- What is known of a draft while its members are read. -/
def Draft.Within (k : Nat) (d : Draft) : Prop := d.node.Slim 0 k ∧ FitsAll 0 k d.node.children

theorem Draft.Within.set {d d' : Draft} {key : String} {v : Json} {k : Nat} (hd : d.Within k)
    (hv : v.Ordered) (hk : v.levels ≤ k) (h : d.set key v = .ok d') : d'.Within k := by
  obtain ⟨hslim, hchildren⟩ := hd
  unfold Draft.set at h
  split at h
  · obtain ⟨tag, -, rfl⟩ := exists_of_map_ok h
    exact ⟨hslim, hchildren⟩
  · obtain ⟨attributes, hread, rfl⟩ := exists_of_map_ok h
    obtain ⟨hkeys, hpos⟩ := ascending_attributes hv hread
    refine ⟨{ hslim with attributes := hkeys, attributes_le := fun _ => ?_ }, hchildren⟩
    omega
  · obtain ⟨text, -, rfl⟩ := exists_of_map_ok h
    exact ⟨{ hslim with }, hchildren⟩
  · obtain ⟨style, hread, rfl⟩ := exists_of_map_ok h
    have hpos := Record.levels_pos hread
    refine ⟨{ hslim with style_le := fun _ => ?_ }, hchildren⟩
    omega
  · obtain ⟨geometry, hread, rfl⟩ := exists_of_map_ok h
    refine ⟨{ hslim with geometry_le := fun hne => ?_ }, hchildren⟩
    obtain ⟨box, rfl⟩ := Option.ne_none_iff_exists'.mp hne
    have hpos := Record.levels_pos_of_optional hread
    omega
  · obtain ⟨on, hread, rfl⟩ := exists_of_map_ok h
    obtain ⟨hkeys, hlevels⟩ := ascending_handlers hv hread
    refine ⟨{ hslim with on := hkeys, on_le := fun hne => ?_ }, hchildren⟩
    exact Nat.le_trans (hlevels hne) hk
  · cases h

theorem fits_of_finish {d : Draft} {cause : DecodeError} {s : NodeSpec} {k : Nat}
    (hd : d.Within k) (h : d.finish cause = .ok s) : Fits 0 (k + 1) s := by
  rw [Draft.finish] at h
  split at h
  · cases h
    exact .mk { hd.1 with } hd.2.1 hd.2.2
  · cases h

/-- What is read from a value fits as many levels as the value has. -/
structure Bounded (j : Json) : Prop where
  node : ∀ {k : Nat} {s : NodeSpec}, j.levels ≤ k → decode j = .ok s → Fits 0 k s
  nodes : ∀ {k : Nat} {ss : List NodeSpec}, j.levels ≤ k → decodeChildren j = .ok ss →
    FitsAll 0 k ss

theorem within_of_foldlM {ms : List (String × Json)} {d : Draft} {k : Nat}
    (hms : ∀ m ∈ ms, m.2.Ordered ∧ Bounded m.2 ∧ m.2.levels ≤ k)
    (h : ms.foldlM decodeMember {} = .ok d) : d.Within k := by
  refine kept_of_foldlM (P := Draft.Within k) ?_ ?_ h
  · intro m hm d d' hd h
    obtain ⟨hordered, hbounded, hk⟩ := hms m hm
    rw [decodeMember] at h
    split at h
    · obtain ⟨children, hread, rfl⟩ := exists_of_map_ok h
      exact ⟨{ hd.1 with }, hbounded.nodes hk hread⟩
    · exact hd.set hordered hk h
  · exact ⟨slim_default 0 k, fun hne => absurd rfl hne, fun c hc => by cases hc⟩

theorem bounded_obj {ms : List (String × Json)} (h : ∀ m ∈ ms, m.2.Ordered ∧ Bounded m.2) :
    Bounded (.obj ms) where
  node {k s} hk hread := by
    rw [decode] at hread
    obtain ⟨d, hfold, hfinish⟩ := exists_of_bind_ok hread
    rw [decodeMembers_eq_foldlM] at hfold
    obtain ⟨k, rfl⟩ : ∃ i, k = i + 1 := ⟨k - 1, by rw [Json.levels] at hk; omega⟩
    have hlevels := Json.levels_obj_le.mp hk
    exact fits_of_finish (within_of_foldlM (fun m hm => ⟨(h m hm).1, (h m hm).2, hlevels m hm⟩)
      hfold) hfinish
  nodes _ hread := by cases hread

theorem fits_of_decodeAll {items : List Json} {k : Nat} {ss : List NodeSpec}
    (h : ∀ x ∈ items, Bounded x ∧ x.levels ≤ k) (hread : decodeAll items = .ok ss) :
    ∀ c ∈ ss, Fits 0 k c := by
  induction items generalizing ss with
  | nil =>
    rw [decodeAll] at hread
    cases hread
    simp
  | cons x items ih =>
    rw [decodeAll] at hread
    obtain ⟨s, hs, hread⟩ := exists_of_bind_ok hread
    obtain ⟨rest, hrest, hread⟩ := exists_of_bind_ok hread
    cases hread
    obtain ⟨hx, hk⟩ := h x List.mem_cons_self
    exact List.forall_mem_cons.mpr
      ⟨hx.node hk hs, ih (fun y hy => h y (List.mem_cons_of_mem _ hy)) hrest⟩

theorem bounded_arr {items : List Json} (h : ∀ x ∈ items, x.Ordered ∧ Bounded x) :
    Bounded (.arr items) where
  node {k s} hk hread := by
    rw [decode] at hread
    obtain ⟨d, hfold, hread⟩ := exists_of_bind_ok hread
    obtain ⟨s', hfinish, hread⟩ := exists_of_bind_ok hread
    rw [decodeItems_eq_foldlM] at hfold
    obtain ⟨k, rfl⟩ : ∃ i, k = i + 1 := ⟨k - 1, by rw [Json.levels] at hk; omega⟩
    have hlevels := Json.levels_arr_le.mp hk
    have hfits := fits_of_finish (within_of_foldlM (fun m hm => by
      have hitem := List.of_mem_zip hm
      exact ⟨(h m.2 hitem.2).1, (h m.2 hitem.2).2, hlevels m.2 hitem.2⟩) hfold) hfinish
    split at hread
    · cases hread
    · cases hread
      exact hfits
  nodes {k ss} hk hread := by
    rw [decodeChildren] at hread
    obtain ⟨k, rfl⟩ : ∃ i, k = i + 1 := ⟨k - 1, by rw [Json.levels] at hk; omega⟩
    have hlevels := Json.levels_arr_le.mp hk
    exact ⟨fun _ => Nat.succ_pos k,
      fits_of_decodeAll (fun x hx => ⟨(h x hx).2, hlevels x hx⟩) hread⟩

theorem bounded_of_ordered {j : Json} (h : j.Ordered) : Bounded j := by
  induction h with
  | null | bool | int | float | str =>
    constructor
    · intro k s _ hread
      cases hread
    · intro k ss _ hread
      cases hread
  | arr hitems ih => exact bounded_arr fun x hx => ⟨hitems x hx, ih x hx⟩
  | obj _ hmembers ih => exact bounded_obj fun m hm => ⟨hmembers m hm, ih m hm⟩

/-! ### Normal forms -/

theorem fits_shortText (spare k : Nat) (text : Option String) :
    ∀ c ∈ shortText text, Fits spare (k + 1) c := by
  intro c hc
  cases text with
  | none => cases hc
  | some text =>
    obtain rfl := List.mem_singleton.mp hc
    exact .mk { slim_default spare k with } (fun hne => absurd rfl hne) fun c hc => by cases hc

theorem Slim.normal {k : Nat} {s : NodeSpec} (h : s.Slim 0 k) : s.normal.Slim 4 (k + 2) := by
  rw [normal_eq, leaf]
  split
  · exact {
      attributes := OrderedMap.ascending_empty
      on := h.on
      attributes_le := fun hne => by cases hne
      on_le := fun _ => Nat.le_add_left 2 k
      style_le := fun _ => Nat.le_add_left 1 (k + 1)
      geometry_le := fun _ => Nat.le_add_left 1 (k + 1) }
  · exact {
      attributes := h.attributes
      on := h.on
      attributes_le := fun hne => by
        have hk := (h.attributes_le hne).1
        omega
      on_le := fun _ => Nat.le_add_left 2 k
      style_le := fun _ => Nat.le_add_left 1 (k + 1)
      geometry_le := fun _ => Nat.le_add_left 1 (k + 1) }

theorem normalAll_eq_map (ss : List NodeSpec) : normalAll ss = ss.map normal := by
  induction ss with
  | nil => rfl
  | cons s rest ih => rw [normalAll, ih, List.map_cons]

theorem mem_leaf_children {s c : NodeSpec} (h : c ∈ s.leaf.children) : c ∈ shortText s.text := by
  rw [leaf] at h
  split at h
  · cases h
  · exact h

/-- The normal form takes at most two levels more, and these leave room for a region. -/
theorem Fits.normal {k : Nat} {s : NodeSpec} (h : Fits 0 k s) : Fits 4 (k + 2) s.normal := by
  induction h with
  | @mk k s top below children ih =>
    have htop := top.normal
    rw [normal_eq] at htop ⊢
    refine .mk htop (fun _ => Nat.succ_pos _) ?_
    intro c hc
    rcases List.mem_append.mp hc with hc | hc
    · exact fits_shortText 4 k s.text c (mem_leaf_children hc)
    · rw [normalAll_eq_map] at hc
      obtain ⟨b, hb, rfl⟩ := List.mem_map.mp hc
      have hk := below (List.ne_nil_of_mem hb)
      have hindex : k - 1 + 2 = k + 2 - 1 := by omega
      exact hindex ▸ ih b hb

theorem FitsAll.normalAll {k : Nat} {ss : List NodeSpec} (h : FitsAll 0 k ss) :
    FitsAll 4 (k + 2) (normalAll ss) := by
  refine ⟨fun _ => Nat.succ_pos _, ?_⟩
  intro c hc
  rw [normalAll_eq_map] at hc
  obtain ⟨b, hb, rfl⟩ := List.mem_map.mp hc
  have hk := h.1 (List.ne_nil_of_mem hb)
  have hindex : k - 1 + 2 = k + 2 - 1 := by omega
  exact hindex ▸ (h.2 b hb).normal

end NodeSpec

namespace PageSpec

open NodeSpec (FitsAll Bounded bounded_of_ordered)

variable {j v : Json} {key : String} {p p' : PageSpec} {k : Nat}

theorem fits_of_set (hv : Bounded v) (hk : v.levels ≤ k) (hp : FitsAll 0 k p.body)
    (h : record.set p key v = .ok p') : FitsAll 0 k p'.body := by
  simp only [record] at h
  split at h
  · obtain ⟨title, -, rfl⟩ := exists_of_map_ok h
    exact hp
  · obtain ⟨options, -, rfl⟩ := exists_of_map_ok h
    exact hp
  · obtain ⟨body, hread, rfl⟩ := exists_of_map_ok h
    exact hv.nodes hk hread
  · cases h
    exact hp

/-- The nodes of a page that was read fit the levels below those of the value. -/
theorem fits_of_decode (hj : j.Ordered) (hk : j.levels ≤ k + 1) (h : decode j = .ok p) :
    FitsAll 0 k p.body := by
  have hstart : FitsAll 0 k record.start.body :=
    ⟨fun hne => absurd rfl hne, fun c hc => by cases hc⟩
  cases hj with
  | @obj ms _ hmembers =>
    obtain ⟨st, hfold, hfinish⟩ := exists_of_bind_ok h
    cases hfinish
    refine kept_of_foldlM (P := fun p => FitsAll 0 k p.body) ?_ hstart hfold
    intro m hm p p' hp h
    have hlevels := Json.levels_obj_le.mp hk m hm
    rw [Record.member] at h
    split at h
    · exact fits_of_set (bounded_of_ordered (hmembers m hm)) hlevels hp h
    · cases h
  | @arr items hitems =>
    obtain ⟨a, hitems', h⟩ := exists_of_bind_ok h
    obtain ⟨st, hfold, hfinish⟩ := exists_of_bind_ok hitems'
    cases hfinish
    have hfits : FitsAll 0 k a.body := by
      refine kept_of_foldlM (P := fun p => FitsAll 0 k p.body) ?_ hstart hfold
      intro m hm p p' hp h
      have hm := (List.of_mem_zip hm).2
      exact fits_of_set (bounded_of_ordered (hitems m.2 hm)) (Json.levels_arr_le.mp hk m.2 hm) hp h
    split at h
    · cases h
    · cases h
      exact hfits
  | null | bool | int | float | str => cases h

end PageSpec

end FormPage
