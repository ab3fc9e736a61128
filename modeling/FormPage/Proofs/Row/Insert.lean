import FormPage.Proofs.Document.Added
import FormPage.Row.Repeat

/-!
A new row as a tree. The thirteen edits that build a row lay out the tree of one description and put
it in front of the row of the control. A row is added exactly where the rows around the control are
found, the next number fits 64 bits and the control's row hangs below the found container; otherwise
no node that was there before is changed.
-/

namespace FormPage.Row

open Document

variable {d : Document} {control : NodeId} {field : String} {t : Template} {number : Int}

/-- The attributes with one more copied, if there is one to copy. -/
def copied (name : String) : Option String → OrderedMap String String → OrderedMap String String
  | none, m => m
  | some value, m => m.insert name value

theorem get?_copied {name k : String} (hk : k ≠ name) (value : Option String)
    (m : OrderedMap String String) : (copied name value m).get? k = m.get? k := by
  cases value with
  | none => rfl
  | some v => rw [copied, OrderedMap.get?_insert, if_neg hk]

/-- What is copied to a map that lacks it is found there as it was found before. -/
theorem get?_copied_self {name : String} {m : OrderedMap String String} (hm : m.get? name = none)
    (value : Option String) : (copied name value m).get? name = value := by
  cases value with
  | none => exact hm
  | some v => rw [copied, OrderedMap.get?_insert, if_pos rfl]

/-- The attributes of the input of a new row. -/
def Template.inputAttributes (t : Template) (field : String) (number : Int) :
    OrderedMap String String :=
  (copied "size" t.inputSize (copied "type" t.inputType ∅)).insert "name"
    (IndexedName.withIndex t.inputName field number)

/-- The description of a new row. -/
def Template.row (t : Template) (field : String) (number : Int) : NodeSpec where
  tag := .tr
  children := [
    { tag := .td, children := [{ tag := .text, text := some (Label.text field number) }] },
    { tag := .td, children := [{ tag := .input, attributes := t.inputAttributes field number }] }]

theorem copyAttribute_added {xs : List Node} {i : Nat} {x : Node} (hx : xs[i]? = some x)
    (hne : x.tag ≠ .text) (name : String) (value : Option String) :
    (d.addNodes xs).edit (copyAttribute (d.size + i) name value) = (.ok (), d.addNodes
      (xs.modify i fun x => { x with attributes := copied name value x.attributes })) := by
  cases value with
  | none =>
    have hid : (fun x : Node => { x with attributes := copied name none x.attributes }) = id := rfl
    rw [hid, List.modify_id]; rfl
  | some v => exact setAttribute_added hx hne name v

/-- Building a row lays out its description and puts it in front of the control's row. -/
theorem edit_insertRow (h : 0 < d.size) (t : Template) (field : String) (number : Int) :
    d.edit (insertRow t field number) =
      (d.lay (t.row field number)).edit
        (insertBefore t.container d.size t.anchor >>= fun _ => pure d.size) := by
  have hinput : Tag.input ≠ .text := by decide
  conv_lhs => rw [← addNodes_nil d]
  simp only [insertRow, edit_bind, createElement_added, createText_added, List.nil_append,
    List.cons_append, List.length_cons, List.length_nil, Nat.zero_add]
  rw [appendChild_added (i := 1) (j := 2) h rfl rfl rfl rfl rfl (by decide)]
  dsimp only
  rw [appendChild_added (i := 0) (j := 1) h rfl rfl rfl rfl rfl (by decide)]
  dsimp only
  rw [copyAttribute_added (i := 4) rfl hinput]
  dsimp only
  rw [copyAttribute_added (i := 4) rfl hinput]
  dsimp only
  rw [setAttribute_added (i := 4) rfl hinput]
  dsimp only
  rw [appendChild_added (i := 3) (j := 4) h rfl rfl rfl rfl rfl (by decide)]
  dsimp only
  rw [appendChild_added (i := 0) (j := 3) h rfl rfl rfl rfl rfl (by decide)]
  rfl

/-- The nodes by which a template was found, and what was read off them. -/
theorem locate?_eq_some (ht : Template.locate? d control field = some t) :
    ∃ above labelCell input, d.nearestAbove? (some control) .tr = some t.anchor ∧
      d.upward? t.anchor = some t.container ∧
      d.nearestBefore? (d.previousSibling? t.anchor) .tr = some above ∧
      d.firstChildTagged? (some above) .td = some labelCell ∧
      d.firstChildTagged? (d.nearestAfter? (d.nextSibling? labelCell) .td) .input = some input ∧
      t.index = Label.number (d.textContent labelCell) field ∧
      t.inputType = d.attribute? input "type" ∧ t.inputSize = d.attribute? input "size" ∧
      t.inputName = (d.attribute? input "name").getD "" := by
  simp only [Template.locate?, bind, Option.bind_eq_some_iff] at ht
  obtain ⟨anchor, hanchor, container, hup, above, habove, cell, hlabel, input, hinput, ht⟩ := ht
  cases ht
  refine ⟨above, cell, input, hanchor, hup, habove, hlabel, hinput, ?_⟩
  simp only [and_self]

theorem tag?_anchor (ht : Template.locate? d control field = some t) :
    d.tag? t.anchor = some .tr := by
  obtain ⟨-, -, -, hanchor, -⟩ := locate?_eq_some ht
  simpa using List.find?_some hanchor

/-- The control's row of a template has an earlier sibling. -/
theorem isSome_previousSibling_of_located (ht : Template.locate? d control field = some t) :
    (d.previousSibling? t.anchor).isSome := by
  obtain ⟨_, _, _, -, -, habove, -⟩ := locate?_eq_some ht
  cases hprevious : d.previousSibling? t.anchor with
  | some _ => rfl
  | none =>
    rw [hprevious, nearestBefore?, path_none] at habove
    cases habove

/-- A row that is found below a parent gets a new row in front of it. -/
theorem add_of_placed (h : WellFormed d) (ht : Template.locate? d control field = some t)
    (hfit : Text.Fits64 (t.index + 1)) (hp : d.parent? t.anchor = some t.container) :
    add d control field = (some d.size,
      d.graft t.container (insertAhead t.anchor d.size) [t.row field (t.index + 1)]) := by
  have hpos := Nat.zero_lt_of_lt (lt_size_of_parent hp)
  simp only [add, ht, hfit, if_true, edit_insertRow hpos, edit_bind, h.insertBefore_lay hp,
    edit_pure]
  rfl

/-- A row that was found by its positioned ancestor alone gets none. -/
theorem add_of_loose (ht : Template.locate? d control field = some t)
    (hfit : Text.Fits64 (t.index + 1)) (hp : d.parent? t.anchor ≠ some t.container) :
    add d control field = (none, d.lay (t.row field (t.index + 1))) := by
  have hlt := lt_size_of_tag (tag?_anchor ht)
  obtain ⟨e, he⟩ := insertBefore_lay_of_not (s := t.row field (t.index + 1)) hlt hp
  simp only [add, ht, hfit, if_true, edit_insertRow (Nat.zero_lt_of_lt hlt), edit_bind, he]
  rfl

/-- Adding a row grafts the row, or lays it out without a place, or does nothing. -/
theorem add_cases (h : WellFormed d) (control : NodeId) (field : String) :
    (∃ t, Template.locate? d control field = some t ∧ Text.Fits64 (t.index + 1) ∧
      d.parent? t.anchor = some t.container ∧ add d control field = (some d.size,
        d.graft t.container (insertAhead t.anchor d.size) [t.row field (t.index + 1)])) ∨
    (∃ t : Template, add d control field = (none, d.lay (t.row field (t.index + 1)))) ∨
    add d control field = (none, d) := by
  cases ht : Template.locate? d control field with
  | none => exact .inr (.inr (by rw [add, ht]))
  | some t =>
    by_cases hfit : Text.Fits64 (t.index + 1)
    · by_cases hp : d.parent? t.anchor = some t.container
      · exact .inl ⟨t, rfl, hfit, hp, add_of_placed h ht hfit hp⟩
      · exact .inr (.inl ⟨_, add_of_loose ht hfit hp⟩)
    · exact .inr (.inr (by simp [add, ht, hfit]))

end FormPage.Row
