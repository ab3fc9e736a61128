import FormPage.Proofs.Document.WellFormed

/-!
The calls of a document's interface, each with any arguments and each of them allowed to fail, and
the edits that are composed of them. Every call keeps a document well-formed (`run_wellFormed`), and
what every call keeps is kept by every edit that is composed of calls (`Keeps.bind`).
-/

namespace FormPage

/-- One call of the interface of a document. -/
inductive Document.Call where
  | createElement (tag : Tag)
  | createText (text : String)
  | appendChild (parent child : NodeId)
  | insertBefore (parent child reference : NodeId)
  | removeChild (parent child : NodeId)
  | setAttribute (n : NodeId) (name value : String)
  | setGeometry (n : NodeId) (box : BoxGeometry)
  | setOffsetParent (n : NodeId) (ancestor : Option NodeId)
  | relayout
  | updateStyle (n : NodeId) (f : Style → Style)
  | withOffsets (reported : Bool)

namespace Document

/-- The document after a call, also after one that failed. -/
def Call.run : Call → Document → Document
  | createElement tag, d => (d.edit (Document.createElement tag)).2
  | createText text, d => (d.edit (Document.createText text)).2
  | appendChild p c, d => (d.edit (Document.appendChild p c)).2
  | insertBefore p c r, d => (d.edit (Document.insertBefore p c r)).2
  | removeChild p c, d => (d.edit (Document.removeChild p c)).2
  | setAttribute n name value, d => (d.edit (Document.setAttribute n name value)).2
  | setGeometry n box, d => (d.edit (Document.setGeometry n box)).2
  | setOffsetParent n a, d => (d.edit (Document.setOffsetParent n a)).2
  | relayout, d => d.relayout
  | updateStyle n f, d => d.updateStyle n f
  | withOffsets reported, d => d.withOffsets reported

variable {d : Document} {n p c r : NodeId}

/-! ### When a node may be placed -/

theorem placementError?_eq_none : d.placementError? p c = none ↔
    ∃ t, d.tag? p = some t ∧ c < d.size ∧ t.isVoid = false ∧ c ≠ root ∧
      c ∉ d.inclusiveAncestors p := by
  rw [placementError?]
  cases ht : d.tag? p with
  | none => simp
  | some t =>
    simp only [Option.some.injEq, exists_eq_left', ← contains_iff]
    split
    · simp_all
    · split
      · simp_all
      · split
        · simp_all
        · split <;> simp_all

theorem insertAhead_perm (mark new : NodeId) :
    ∀ l : List NodeId, (insertAhead mark new l).Perm (new :: l)
  | [] => .refl _
  | a :: rest => by
    rw [insertAhead]
    split
    · exact .refl _
    · exact ((insertAhead_perm mark new rest).cons a).trans (.swap new a rest)

/-- A new entry goes directly ahead of the first mark. -/
theorem insertAhead_append {mark new : NodeId} : ∀ {pre post : List NodeId}, mark ∉ pre →
    insertAhead mark new (pre ++ mark :: post) = pre ++ new :: mark :: post
  | [], post, _ => by rw [List.nil_append, List.nil_append, insertAhead, if_pos rfl]
  | x :: pre, post, h => by
    obtain ⟨hne, hpre⟩ := not_or.mp (mt List.mem_cons.mpr h)
    rw [List.cons_append, List.cons_append, insertAhead, if_neg (Ne.symm hne),
      insertAhead_append hpre]

theorem append_perm (new : NodeId) (l : List NodeId) : (l ++ [new]).Perm (new :: l) :=
  List.perm_append_singleton new l

/-- Moving a node keeps a document well-formed wherever it may be placed. -/
theorem WellFormed.move (h : WellFormed d) (hp : d.placementError? p c = none)
    {place : List NodeId → List NodeId} (hplace : ∀ l, (place l).Perm (c :: l)) :
    WellFormed ((d.detach c).link p c place) := by
  obtain ⟨t, ht, hc, hv, hroot, hup⟩ := placementError?_eq_none.mp hp
  rw [h.mem_inclusiveAncestors] at hup
  refine (h.detach c).link (by rw [size_detach]; exact lt_size_of_tag ht)
    (by rwa [size_detach]) (by rw [parent?_detach, if_pos rfl]) hroot (fun hr => hup ?_) ?_
    fun l _ => hplace l
  · refine Relation.ReflTransGen.mono (fun x y hxy => ?_) _ _ hr
    rw [Step, parent?_detach] at hxy
    split at hxy
    · cases hxy
    · exact hxy
  · intro t' ht'
    rw [WellFormed.tag?_eq_of_face (face?_detach d c), ht] at ht'
    cases ht'
    exact hv

/-- Every call keeps a document well-formed. -/
theorem Call.run_wellFormed (h : WellFormed d) (k : Call) : WellFormed (k.run d) := by
  cases k with
  | createElement tag => exact h.push _ rfl rfl rfl fun _ => rfl
  | createText text => exact h.push _ rfl rfl rfl fun _ => rfl
  | appendChild p c =>
    simp only [run, edit, Document.appendChild, ExceptT.run, StateT.run]
    split
    · exact h
    · rename_i hp
      exact h.move hp (append_perm c)
  | insertBefore p c r =>
    simp only [run, edit, Document.insertBefore, ExceptT.run, StateT.run]
    split
    · exact h
    · rename_i hp
      split
      · exact h
      · split
        · exact h
        · split
          · exact h.move hp (insertAhead_perm r c)
          · exact h.detach c
  | removeChild p c =>
    simp only [run, edit, Document.removeChild, ExceptT.run, StateT.run]
    split
    · exact h
    · exact h.detach c
  | setAttribute n name value =>
    simp only [run, edit, Document.setAttribute, ExceptT.run, StateT.run]
    split
    · exact h
    · exact h
    · rename_i t hne ht
      refine h.repaint n (fun _ => rfl) (fun _ => rfl) (fun _ => rfl) (fun _ => rfl) ?_
      intro x hx htext
      rw [tag?, hx, Option.map_some, htext] at ht
      exact absurd (Option.some.inj ht).symm hne
  | setGeometry n box =>
    simp only [run, edit, Document.setGeometry, ExceptT.run, StateT.run]
    split
    · exact h.repaint n (fun _ => rfl) (fun _ => rfl) (fun _ => rfl) (fun _ => rfl) fun _ _ _ => rfl
    · exact h
  | setOffsetParent n a =>
    simp only [run, edit, Document.setOffsetParent, ExceptT.run, StateT.run]
    split
    · exact h
    · rename_i hn
      have hn : n < d.size := by simpa [contains_iff] using hn
      split
      · exact h.setLink hn fun _ ha => by cases ha
      · split
        · exact h
        · rename_i a ha
          split
          · exact h
          · refine h.setLink hn fun b hb => ?_
            cases hb
            simpa [contains_iff] using ha
  | relayout => exact h.relayout
  | updateStyle n f =>
    exact h.repaint n (fun _ => rfl) (fun _ => rfl) (fun _ => rfl) (fun _ => rfl) fun _ _ _ => rfl
  | withOffsets reported => exact h.withOffsets reported

/-! ### Texts belong to text nodes -/

/-- No element has a text of its own. -/
def ElementsBare (d : Document) : Prop :=
  ∀ n x, d.face? n = some x → x.tag ≠ .text → x.text = ""

theorem ElementsBare.of_face {d' : Document} (h : ElementsBare d)
    (hface : ∀ n, d'.face? n = d.face? n) : ElementsBare d' :=
  fun n x hx => h n x (hface n ▸ hx)

theorem ElementsBare.update (h : ElementsBare d) (n : NodeId) {f : Node → Node}
    (hf : ∀ x, (f x).tag = x.tag ∧ (f x).text = x.text) : ElementsBare (d.update n f) := by
  intro m x hx ht
  rw [face?, node?_update] at hx
  split at hx
  · rw [Option.map_map] at hx
    obtain ⟨y, hy, rfl⟩ := Option.map_eq_some_iff.mp hx
    exact (hf y).2.trans (h m y.face (face?_of_node hy) fun hyt => ht ((hf y).1.trans hyt))
  · exact h m x hx ht

theorem ElementsBare.push (h : ElementsBare d) {x : Node} (hx : x.tag ≠ .text → x.text = "") :
    ElementsBare (d.push x) := by
  intro m y hy ht
  rw [face?_push] at hy
  split at hy
  · cases hy; exact hx ht
  · exact h m y hy ht

/-- No call gives an element a text of its own. -/
theorem Call.run_elementsBare (h : ElementsBare d) (k : Call) : ElementsBare (k.run d) := by
  have hmove : ∀ c p place, ElementsBare ((d.detach c).link p c place) := fun c p place =>
    h.of_face fun n => by rw [face?_link, face?_detach]
  cases k with
  | createElement tag => exact h.push fun _ => rfl
  | createText text => exact h.push fun ht => absurd rfl ht
  | appendChild p c =>
    simp only [run, edit, Document.appendChild, ExceptT.run, StateT.run]
    split
    · exact h
    · exact hmove c p _
  | insertBefore p c r =>
    simp only [run, edit, Document.insertBefore, ExceptT.run, StateT.run]
    split
    · exact h
    · split
      · exact h
      · split
        · exact h
        · split
          · exact hmove c p _
          · exact h.of_face (face?_detach d c)
  | removeChild p c =>
    simp only [run, edit, Document.removeChild, ExceptT.run, StateT.run]
    split
    · exact h
    · exact h.of_face (face?_detach d c)
  | setAttribute n name value =>
    simp only [run, edit, Document.setAttribute, ExceptT.run, StateT.run]
    split
    · exact h
    · exact h
    · exact h.update n fun _ => ⟨rfl, rfl⟩
  | setGeometry n box =>
    simp only [run, edit, Document.setGeometry, ExceptT.run, StateT.run]
    split
    · exact h.update n fun _ => ⟨rfl, rfl⟩
    · exact h
  | setOffsetParent n a =>
    simp only [run, edit, Document.setOffsetParent, ExceptT.run, StateT.run]
    split
    · exact h
    · split
      · exact h.update n fun _ => ⟨rfl, rfl⟩
      · split
        · exact h
        · split
          · exact h
          · exact h.update n fun _ => ⟨rfl, rfl⟩
  | relayout => exact h.of_face (face?_relayout d)
  | updateStyle n f => exact h.update n fun _ => ⟨rfl, rfl⟩
  | withOffsets reported => exact h

/-! ### Nodes keep their kinds -/

/-- No call changes the kind of a node. -/
theorem Call.tag?_run {t : Tag} (h : d.tag? n = some t) (k : Call) : (k.run d).tag? n = some t := by
  have hpush : ∀ x, (d.push x).tag? n = some t := fun x => by
    rw [tag?, node?_push, if_neg (Nat.ne_of_lt (lt_size_of_tag h))]; exact h
  have hdetach : ∀ c, (d.detach c).tag? n = some t := fun c => by
    rw [tag?_eq_face, face?_detach, ← tag?_eq_face, h]
  have hmove : ∀ c p place, ((d.detach c).link p c place).tag? n = some t := fun c p place => by
    rw [tag?_eq_face, face?_link, ← tag?_eq_face, hdetach]
  have hupdate : ∀ m f, (∀ x : Node, (f x).tag = x.tag) → (d.update m f).tag? n = some t :=
    fun m f hf => (tag?_update hf).trans h
  cases k with
  | createElement tag => exact hpush _
  | createText text => exact hpush _
  | appendChild p c =>
    simp only [run, edit, Document.appendChild, ExceptT.run, StateT.run]
    split
    · exact h
    · exact hmove c p _
  | insertBefore p c r =>
    simp only [run, edit, Document.insertBefore, ExceptT.run, StateT.run]
    split
    · exact h
    · split
      · exact h
      · split
        · exact h
        · split
          · exact hmove c p _
          · exact hdetach c
  | removeChild p c =>
    simp only [run, edit, Document.removeChild, ExceptT.run, StateT.run]
    split
    · exact h
    · exact hdetach c
  | setAttribute m name value =>
    simp only [run, edit, Document.setAttribute, ExceptT.run, StateT.run]
    split
    · exact h
    · exact h
    · exact hupdate m _ fun _ => rfl
  | setGeometry m box =>
    simp only [run, edit, Document.setGeometry, ExceptT.run, StateT.run]
    split
    · exact hupdate m _ fun _ => rfl
    · exact h
  | setOffsetParent m a =>
    simp only [run, edit, Document.setOffsetParent, ExceptT.run, StateT.run]
    split
    · exact h
    · split
      · exact hupdate m _ fun _ => rfl
      · split
        · exact h
        · split
          · exact h
          · exact hupdate m _ fun _ => rfl
  | relayout => exact (tag?_eq_face _ n).trans (by rw [Call.run, face?_relayout, ← tag?_eq_face, h])
  | updateStyle m f => exact hupdate m _ fun _ => rfl
  | withOffsets reported => exact h

end Document

/-! ### Edits that are composed of calls -/

/-- A property of documents that every call keeps. -/
def Document.Kept (P : Document → Prop) : Prop :=
  ∀ (k : Document.Call) (d : Document), P d → P (k.run d)

theorem Document.wellFormed_kept : Document.Kept Document.WellFormed := fun k _ h =>
  k.run_wellFormed h

theorem Document.elementsBare_kept : Document.Kept Document.ElementsBare := fun k _ h =>
  k.run_elementsBare h

/-- An edit that keeps a property, whether it fails or not. -/
def Edit.Keeps {α : Type} (P : Document → Prop) (e : Edit α) : Prop := ∀ d, P d → P (d.edit e).2

section Compose

variable {α β : Type} {P : Document → Prop}

theorem Document.edit_bind (d : Document) (e : Edit α) (f : α → Edit β) :
    d.edit (e >>= f) =
      match d.edit e with
      | (.ok a, d') => d'.edit (f a)
      | (.error x, d') => (.error x, d') := by
  simp only [edit, bind, ExceptT.bind, ExceptT.mk, ExceptT.run, StateT.bind, StateT.run]
  rcases e d with ⟨_ | _, _⟩ <;> rfl

theorem Document.edit_pure (d : Document) (a : α) : d.edit (pure a : Edit α) = (.ok a, d) := rfl

theorem Document.edit_setAttribute {d : Document} {n : NodeId} {t : Tag} (ht : d.tag? n = some t)
    (hne : t ≠ .text) (name value : String) : d.edit (setAttribute n name value) =
      (.ok (), d.update n fun x => { x with attributes := x.attributes.insert name value }) := by
  simp only [edit, setAttribute, ExceptT.run, StateT.run, ht]

theorem Edit.keeps_pure (a : α) : Edit.Keeps P (pure a : Edit α) := fun _ h => h

theorem Edit.Keeps.bind {e : Edit α} {f : α → Edit β} (he : e.Keeps P) (hf : ∀ a, (f a).Keeps P) :
    (e >>= f).Keeps P := by
  intro d hd
  have he' := he d hd
  rw [Document.edit_bind]
  rcases hr : d.edit e with ⟨x | a, d'⟩ <;> rw [hr] at he'
  · exact he'
  · exact hf a d' he'

theorem Edit.keeps_modify {g : Document → Document} (hg : ∀ d, P d → P (g d)) :
    Edit.Keeps P (modify g : Edit PUnit) := hg

variable (hP : Document.Kept P)
include hP

theorem Document.Kept.createElement (tag : Tag) : (Document.createElement tag).Keeps P :=
  hP (.createElement tag)

theorem Document.Kept.createText (text : String) : (Document.createText text).Keeps P :=
  hP (.createText text)

theorem Document.Kept.appendChild (p c : NodeId) : (Document.appendChild p c).Keeps P :=
  hP (.appendChild p c)

theorem Document.Kept.insertBefore (p c r : NodeId) : (Document.insertBefore p c r).Keeps P :=
  hP (.insertBefore p c r)

theorem Document.Kept.removeChild (p c : NodeId) : (Document.removeChild p c).Keeps P :=
  hP (.removeChild p c)

theorem Document.Kept.setAttribute (n : NodeId) (name value : String) :
    (Document.setAttribute n name value).Keeps P :=
  hP (.setAttribute n name value)

theorem Document.Kept.updateStyle {d : Document} (h : P d) (n : NodeId) (f : Style → Style) :
    P (d.updateStyle n f) :=
  hP (.updateStyle n f) d h

end Compose

end FormPage
