import FormPage.Proofs.Document.Path
import FormPage.Proofs.Document.Views

/-!
Well-formed documents. The links of a well-formed document name existing nodes, parents and children
agree, nothing lies above itself, and the kinds that hold nothing hold nothing. Each way in which a
document is written keeps this, under the conditions that the edits check.
-/

namespace FormPage.Document

open Relation

/-- `a` lies above `n`, not necessarily next to it. -/
def Above (d : Document) (a n : NodeId) : Prop := TransGen (Step d.parent?) n a

/-- `a` is `n` or lies above it. -/
def AtOrAbove (d : Document) (a n : NodeId) : Prop := ReflTransGen (Step d.parent?) n a

/-- What every edit of a document keeps. -/
structure WellFormed (d : Document) : Prop where
  parent_lt : ∀ c p, d.parent? c = some p → p < d.size
  child_lt : ∀ p c, c ∈ d.children p → c < d.size
  link_lt : ∀ n a, d.offsetLink? n = some a → a < d.size
  mem_children : ∀ p c, c ∈ d.children p ↔ d.parent? c = some p
  nodup_children : ∀ p, (d.children p).Nodup
  not_above_self : ∀ n, ¬ d.Above n n
  root_top : d.parent? root = none
  void_empty : ∀ n t, d.tag? n = some t → t.isVoid = true → d.children n = []
  text_bare : ∀ n x, d.face? n = some x → x.tag = .text → x.attributes = ∅

variable {d d' : Document} {n m a p c : NodeId}

namespace WellFormed

theorem acyclic (h : WellFormed d) : Acyclic d.parent? d.size where
  source_lt _ _ := lt_size_of_parent
  target_lt := h.parent_lt
  irrefl := h.not_above_self

theorem mem_inclusiveAncestors (h : WellFormed d) :
    a ∈ d.inclusiveAncestors n ↔ d.AtOrAbove a n :=
  mem_path_iff h.acyclic

theorem mem_ancestors (h : WellFormed d) : a ∈ d.ancestors n ↔ d.Above a n := by
  rw [ancestors, Above, TransGen.head'_iff]
  cases hn : d.parent? n with
  | none =>
    rw [path_none]
    refine ⟨fun hm => absurd hm List.not_mem_nil, fun ⟨b, hb, _⟩ => ?_⟩
    rw [Step, hn] at hb
    cases hb
  | some b =>
    rw [mem_path_iff h.acyclic]
    refine ⟨fun hr => ⟨b, hn, hr⟩, fun ⟨b', hb, hr⟩ => ?_⟩
    rwa [step_unique hn hb]

theorem ancestor_lt (h : WellFormed d) (ha : a ∈ d.ancestors n) : a < d.size := by
  obtain ⟨b, hb, hr⟩ := TransGen.head'_iff.mp (h.mem_ancestors.mp ha)
  exact h.acyclic.lt_of_reaches (h.parent_lt _ _ hb) hr

theorem parent_ne_self (h : WellFormed d) (hp : d.parent? c = some p) : p ≠ c := by
  rintro rfl
  exact h.not_above_self p (.single hp)

theorem layoutParent_lt (h : WellFormed d) (ha : d.layoutParent? n = some a) : a < d.size := by
  rw [layoutParent?] at ha
  split at ha
  · cases ha
  · split at ha
    · cases ha
    · exact h.ancestor_lt (List.mem_of_find?_eq_some ha)

/-- A void node with an attribute is an input. -/
theorem tag?_of_void (h : WellFormed d) {name value : String} {t : Tag}
    (ha : d.attribute? n name = some value) (ht : d.tag? n = some t) (hv : t.isVoid = true) :
    t = .input := by
  obtain ⟨x, hx, rfl⟩ := Option.map_eq_some_iff.mp ht
  cases hxt : x.tag with
  | input => rfl
  | text =>
    have hbare : x.attributes = ∅ := h.text_bare n x.face (face?_of_node hx) hxt
    rw [attribute?, hx, Option.bind_some, hbare] at ha
    cases ha
  | _ => rw [hxt] at hv; cases hv

/-! ### Edits that keep the tree -/

/-- A document with the same tree is well-formed if its links and texts are. -/
theorem of_sameTree (h : WellFormed d) (hsize : d'.size = d.size)
    (hparent : ∀ n, d'.parent? n = d.parent? n) (hchildren : ∀ n, d'.children n = d.children n)
    (htag : ∀ n, d'.tag? n = d.tag? n) (hlink : ∀ n a, d'.offsetLink? n = some a → a < d'.size)
    (htext : ∀ n x, d'.face? n = some x → x.tag = .text → x.attributes = ∅) : WellFormed d' where
  parent_lt c p hp := by rw [hsize]; exact h.parent_lt c p (hparent c ▸ hp)
  child_lt p c hc := by rw [hsize]; exact h.child_lt p c (hchildren p ▸ hc)
  link_lt := hlink
  mem_children p c := by rw [hchildren, hparent]; exact h.mem_children p c
  nodup_children p := by rw [hchildren]; exact h.nodup_children p
  not_above_self n hn := by
    have hstep : Step d'.parent? = Step d.parent? := by funext a b; rw [Step, Step, hparent]
    rw [Above, hstep] at hn
    exact h.not_above_self n hn
  root_top := by rw [hparent]; exact h.root_top
  void_empty n t ht hv := by rw [hchildren]; exact h.void_empty n t (htag n ▸ ht) hv
  text_bare := htext

/-- A change of what a node shows, which gives no attribute to a text. -/
theorem repaint (h : WellFormed d) (n : NodeId) {f : Node → Node}
    (hparent : ∀ x, (f x).parent = x.parent) (hchildren : ∀ x, (f x).children = x.children)
    (hlink : ∀ x, (f x).offsetParent = x.offsetParent) (htag : ∀ x, (f x).tag = x.tag)
    (htext : ∀ x, d.node? n = some x → x.tag = .text → (f x).attributes = x.attributes) :
    WellFormed (d.update n f) := by
  refine h.of_sameTree (size_update d n f) (fun _ => parent?_update hparent)
    (fun _ => children_update hchildren) (fun m => ?_) (fun m a ha => ?_) (fun m x hx ht => ?_)
  · exact map_node?_update (·.tag) htag
  · rw [offsetLink?_update hlink] at ha
    rw [size_update]
    exact h.link_lt m a ha
  · rw [face?, node?_update] at hx
    split at hx
    · rename_i hnm
      subst hnm
      rw [Option.map_map] at hx
      obtain ⟨y, hy, rfl⟩ := Option.map_eq_some_iff.mp hx
      have hyt : y.tag = .text := (htag y).symm.trans ht
      exact (htext y hy hyt).trans (h.text_bare n y.face (face?_of_node hy) hyt)
    · exact h.text_bare m x hx ht

theorem relayout (h : WellFormed d) : WellFormed d.relayout := by
  refine h.of_sameTree (size_relayout d) (parent?_relayout d) (children_relayout d)
    (fun n => ?_) (fun n a ha => ?_) (fun n x hx => ?_)
  · rw [tag?_eq_face, tag?_eq_face, face?_relayout]
  · rw [offsetLink?_relayout] at ha
    rw [size_relayout]
    exact h.layoutParent_lt ha
  · exact h.text_bare n x (face?_relayout d n ▸ hx)

theorem setLink (h : WellFormed d) (hn : n < d.size) {link : Option NodeId}
    (hlt : ∀ a, link = some a → a < d.size) :
    WellFormed (d.update n fun x => { x with offsetParent := link }) := by
  refine h.of_sameTree (size_update ..) (fun _ => parent?_update fun _ => rfl)
    (fun _ => children_update fun _ => rfl) (fun m => ?_) (fun m a ha => ?_) (fun m x hx => ?_)
  · exact map_node?_update (·.tag) fun _ => rfl
  · rw [offsetLink?_setLink hn] at ha
    rw [size_update]
    split at ha
    · exact hlt a ha
    · exact h.link_lt m a ha
  · have hface := face?_update (d := d) (n := n) (m := m)
      (f := fun x => { x with offsetParent := link }) fun _ => rfl
    exact h.text_bare m x (hface ▸ hx)

theorem withOffsets (h : WellFormed d) (reported : Bool) : WellFormed (d.withOffsets reported) :=
  h.of_sameTree rfl (fun _ => rfl) (fun _ => rfl) (fun _ => rfl) h.link_lt h.text_bare

/-! ### Edits of the tree -/

theorem tag?_eq_of_face (hface : ∀ n, d'.face? n = d.face? n) (n : NodeId) :
    d'.tag? n = d.tag? n := by
  rw [tag?_eq_face, tag?_eq_face, hface]

/-- A new node without links. -/
theorem push (h : WellFormed d) (x : Node) (hparent : x.parent = none) (hchildren : x.children = [])
    (hlink : x.offsetParent = none) (htext : x.tag = .text → x.attributes = ∅) :
    WellFormed (d.push x) := by
  have hp : ∀ n, (d.push x).parent? n = d.parent? n := fun n => by
    rw [parent?_push, hparent]
    split
    · rename_i hn
      rw [parent?, node?_eq_none_iff.mpr (Nat.le_of_eq hn.symm)]; rfl
    · rfl
  have hc : ∀ n, (d.push x).children n = d.children n := fun n => by
    rw [children_push, hchildren]
    split
    · rename_i hn
      rw [Document.children, node?_eq_none_iff.mpr (Nat.le_of_eq hn.symm)]; rfl
    · rfl
  have hstep : Step (d.push x).parent? = Step d.parent? := by funext a b; rw [Step, Step, hp]
  constructor
  case parent_lt => intro c p hcp; rw [hp] at hcp; exact lt_size_push (h.parent_lt c p hcp)
  case child_lt => intro p c hpc; rw [hc] at hpc; exact lt_size_push (h.child_lt p c hpc)
  case link_lt =>
    intro n a ha
    rw [offsetLink?_push, hlink] at ha
    split at ha
    · cases ha
    · exact lt_size_push (h.link_lt n a ha)
  case mem_children => intro p c; rw [hc, hp]; exact h.mem_children p c
  case nodup_children => intro p; rw [hc]; exact h.nodup_children p
  case not_above_self => intro n hn; rw [Above, hstep] at hn; exact h.not_above_self n hn
  case root_top => rw [hp]; exact h.root_top
  case void_empty =>
    intro n t ht hv
    rw [hc]
    by_cases hn : n < d.size
    · refine h.void_empty n t ?_ hv
      rwa [tag?_eq_face, face?_push, if_neg (Nat.ne_of_lt hn), ← tag?_eq_face] at ht
    · rw [Document.children, node?_eq_none_iff.mpr (Nat.le_of_not_lt hn)]; rfl
  case text_bare =>
    intro n y hy ht
    rw [face?_push] at hy
    split at hy
    · cases hy; exact htext ht
    · exact h.text_bare n y hy ht

theorem children_detach (h : WellFormed d) (c m : NodeId) :
    (d.detach c).children m = (d.children m).filter (· ≠ c) := by
  rw [Document.children_detach]
  split
  · rfl
  · rename_i hp
    refine (List.filter_eq_self.mpr fun a ha => decide_eq_true ?_).symm
    rintro rfl
    exact hp ((h.mem_children m a).mp ha)

theorem above_of_detach (hab : (d.detach c).Above a n) : d.Above a n := by
  refine TransGen.mono (fun x y hxy => ?_) _ _ hab
  rw [Step, parent?_detach] at hxy
  split at hxy
  · cases hxy
  · exact hxy

theorem detach (h : WellFormed d) (c : NodeId) : WellFormed (d.detach c) := by
  constructor
  case parent_lt =>
    intro k p hk
    rw [parent?_detach] at hk
    split at hk
    · cases hk
    · rw [size_detach]; exact h.parent_lt k p hk
  case child_lt =>
    intro p k hk
    rw [h.children_detach] at hk
    rw [size_detach]
    exact h.child_lt p k (List.mem_of_mem_filter hk)
  case link_lt =>
    intro n a ha
    rw [size_detach]
    exact h.link_lt n a (offsetLink?_detach d c n ▸ ha)
  case mem_children =>
    intro p k
    rw [h.children_detach, List.mem_filter, h.mem_children, parent?_detach]
    by_cases hk : k = c <;> simp [hk]
  case nodup_children => intro p; rw [h.children_detach]; exact (h.nodup_children p).filter _
  case not_above_self => exact fun n hn => h.not_above_self n (above_of_detach hn)
  case root_top =>
    rw [parent?_detach]
    split
    · rfl
    · exact h.root_top
  case void_empty =>
    intro n t ht hv
    rw [h.children_detach, h.void_empty n t (tag?_eq_of_face (face?_detach d c) n ▸ ht) hv]; rfl
  case text_bare => exact fun n x hx => h.text_bare n x (face?_detach d c n ▸ hx)

variable {place : List NodeId → List NodeId}

/-- A detached node that does not lie above its new parent. -/
theorem link (h : WellFormed d) (hp : p < d.size) (hc : c < d.size) (hnew : d.parent? c = none)
    (hroot : c ≠ root) (hup : ¬ d.AtOrAbove c p) (hvoid : ∀ t, d.tag? p = some t → t.isVoid = false)
    (hplace : ∀ l : List NodeId, c ∉ l → (place l).Perm (c :: l)) :
    WellFormed (d.link p c place) := by
  have hfresh : ∀ m, c ∉ d.children m := fun m hm => by
    rw [h.mem_children, hnew] at hm; cases hm
  have hperm := hplace _ (hfresh p)
  constructor
  case parent_lt =>
    intro k q hk
    rw [parent?_link hc] at hk
    rw [size_link]
    split at hk
    · cases hk; exact hp
    · exact h.parent_lt k q hk
  case child_lt =>
    intro q k hk
    rw [children_link hp] at hk
    rw [size_link]
    split at hk
    · rcases List.mem_cons.mp (hperm.mem_iff.mp hk) with rfl | hk
      · exact hc
      · exact h.child_lt p k hk
    · exact h.child_lt q k hk
  case link_lt =>
    intro n a ha
    rw [size_link]
    exact h.link_lt n a (offsetLink?_link d p c n place ▸ ha)
  case mem_children =>
    intro q k
    rw [children_link hp, parent?_link hc]
    by_cases hq : q = p
    · subst hq
      rw [if_pos rfl, hperm.mem_iff, List.mem_cons, h.mem_children]
      by_cases hk : k = c <;> simp [hk]
    · rw [if_neg hq, h.mem_children]
      by_cases hk : k = c
      · rw [if_pos hk, hk, hnew]
        simp [Ne.symm hq]
      · rw [if_neg hk]
  case nodup_children =>
    intro q
    rw [children_link hp]
    split
    · exact hperm.nodup_iff.mpr (List.nodup_cons.mpr ⟨hfresh p, h.nodup_children p⟩)
    · exact h.nodup_children q
  case not_above_self =>
    exact irrefl_of_redirect (fun m => parent?_link hc) h.not_above_self fun q hq => by
      cases hq
      exact hup
  case root_top =>
    rw [parent?_link hc, if_neg (Ne.symm hroot)]
    exact h.root_top
  case void_empty =>
    intro n t ht hv
    have ht' : d.tag? n = some t := tag?_eq_of_face (fun m => face?_link d p c m place) n ▸ ht
    rw [children_link hp]
    split
    · rename_i hnp
      subst hnp
      rw [hvoid t ht'] at hv
      cases hv
    · exact h.void_empty n t ht' hv
  case text_bare => exact fun n x hx => h.text_bare n x (face?_link d p c n place ▸ hx)

end WellFormed

/-- The document without content is well-formed. -/
theorem wellFormed_empty : WellFormed empty := by
  have hbelow : ∀ c p, empty.parent? c = some p ↔ c = body ∧ p = root := by
    rintro (_ | _ | c) p <;>
      simp [parent?, node?, empty, root, body, eq_comm (a := (0 : Nat))]
  have hchildren : ∀ p, empty.children p = if p = root then [body] else [] := by
    rintro (_ | _ | p) <;> simp [children, node?, empty, root, body]
  have hlink : ∀ n, empty.offsetLink? n = none := by
    rintro (_ | _ | n) <;> simp [offsetLink?, node?, empty]
  constructor
  case parent_lt => intro c p hp; obtain ⟨rfl, rfl⟩ := (hbelow c p).mp hp; decide
  case child_lt =>
    intro p c hc
    rw [hchildren] at hc
    split at hc <;> simp at hc
    subst hc; decide
  case link_lt => intro n a ha; rw [hlink] at ha; cases ha
  case mem_children => intro p c; rw [hbelow, hchildren]; by_cases hp : p = root <;> simp [hp]
  case nodup_children => intro p; rw [hchildren]; split <;> simp
  case not_above_self =>
    intro n hn
    obtain ⟨b, hb, hr⟩ := TransGen.head'_iff.mp hn
    obtain ⟨rfl, rfl⟩ := (hbelow _ _).mp hb
    rcases hr.cases_head with hr | ⟨k, hk, _⟩
    · cases hr
    · cases ((hbelow _ _).mp hk).1
  case root_top => rfl
  case void_empty =>
    rintro (_ | _ | n) t ht hv <;> simp [tag?, node?, empty] at ht <;> subst ht <;> cases hv
  case text_bare =>
    rintro (_ | _ | n) x hx ht <;> simp [face?, node?, empty, Node.face] at hx <;> subst hx <;>
      cases ht

end FormPage.Document
