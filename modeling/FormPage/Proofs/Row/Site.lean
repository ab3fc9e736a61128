import FormPage.Proofs.Row.Counting

/-!
When a row is added and what is then different. The nodes by which a row is added are described
without any search (`Site.Stands`): the nearest row above a control, the nearest row among its
earlier siblings, that row's first cell, the nearest cell among the later ones, and its first input.
A template is found exactly where they stand. The row found on the way up has an earlier sibling, so
that it hangs below the container and none of the edits that build a row can fail: adding a row is
done as a whole or not at all (`add_of_reachable`).
-/

namespace FormPage

open Document Relation

variable {d : Document} {control : NodeId} {field : String}

namespace Row

open IndexedName (withIndex)

/-- The nodes around a control by which a row is added. -/
structure Site where
  /-- The row of the control. -/
  anchor : NodeId
  /-- The parent of that row. -/
  container : NodeId
  /-- The earlier siblings of the control's row. -/
  before : List NodeId
  /-- The later siblings of the control's row. -/
  behind : List NodeId
  /-- The row that is copied. -/
  above : NodeId
  /-- The cell of that row with the label. -/
  labelCell : NodeId
  /-- The cell of that row with the input. -/
  inputCell : NodeId
  /-- The input that is copied. -/
  input : NodeId

namespace Site

/-- Where the nodes stand: each is the nearest of its kind, seen from the one before. -/
structure Stands (s : Site) (d : Document) (control : NodeId) : Prop where
  anchor : Ascends d .tr (some control) (some s.anchor)
  siblings : d.children s.container = s.before ++ s.anchor :: s.behind
  above : d.firstTagged .tr s.before.reverse = some s.above
  labelCell : d.firstTagged .td (d.children s.above) = some s.labelCell
  inputCell : ∃ earlier later, d.children s.above = earlier ++ s.labelCell :: later ∧
    d.firstTagged .td later = some s.inputCell
  input : d.firstTagged .input (d.children s.inputCell) = some s.input

/-- The number that the copied row shows. -/
def index (s : Site) (d : Document) (field : String) : Int :=
  Label.number (d.textContent s.labelCell) field

/-- What a new row takes from the nodes of a site. -/
def template (s : Site) (d : Document) (field : String) : Template where
  anchor := s.anchor
  container := s.container
  index := s.index d field
  inputType := d.attribute? s.input "type"
  inputSize := d.attribute? s.input "size"
  inputName := (d.attribute? s.input "name").getD ""

@[simp] theorem index_template (s : Site) (d : Document) (field : String) :
    (s.template d field).index = s.index d field := by
  simp only [template]

/-- `d'` is `d` with the row of a number in front of the control's row, and nothing else. -/
structure Added (s : Site) (d : Document) (field : String) (number : Int) (d' : Document) :
    Prop where
  size : d'.size = d.size + 5
  reportsOffsets : d'.reportsOffsets = d.reportsOffsets
  row : d'.node? d.size =
    some { tag := .tr, parent := some s.container, children := [d.size + 1, d.size + 3] }
  labelCell : d'.node? (d.size + 1) =
    some { tag := .td, parent := some d.size, children := [d.size + 2] }
  label : d'.node? (d.size + 2) =
    some { tag := .text, parent := some (d.size + 1), text := field ++ " " ++ Text.showInt number }
  inputCell : d'.node? (d.size + 3) =
    some { tag := .td, parent := some d.size, children := [d.size + 4] }
  input : ∃ attributes,
    d'.node? (d.size + 4) = some { tag := .input, parent := some (d.size + 3), attributes } ∧
    ∀ name, attributes.get? name =
      if name = "name" then
        some (withIndex ((d.attribute? s.input "name").getD "") field number)
      else if name = "type" ∨ name = "size" then d.attribute? s.input name else none
  container : d'.node? s.container = (d.node? s.container).map fun x =>
    { x with children := s.before ++ d.size :: s.anchor :: s.behind }
  old : ∀ n < d.size, n ≠ s.container → d'.node? n = d.node? n

/-! ### What is searched and what stands there -/

section Located

variable {s : Site} {t : Template} (h : WellFormed d) (hup : Acyclic d.upward? d.size)
include h

theorem Stands.parent?_anchor (hs : s.Stands d control) :
    d.parent? s.anchor = some s.container := by
  rw [← h.mem_children, hs.siblings]
  simp

include hup

theorem Stands.locate? (hs : s.Stands d control) :
    Template.locate? d control field = some (s.template d field) := by
  obtain ⟨earlier, later, hcells, hinputCell⟩ := hs.inputCell
  have hanchor : d.nearestAbove? (some control) .tr = some s.anchor :=
    (nearestAbove?_eq_some_iff hup).mpr hs.anchor
  have hcontainer : d.upward? s.anchor = some s.container := by
    rw [upward?, hs.parent?_anchor h, Option.some_or]
  have habove : d.nearestBefore? (d.previousSibling? s.anchor) .tr = some s.above := by
    rw [h.nearestBefore?_previousSibling hs.siblings, hs.above]
  have hlabelCell : d.firstChildTagged? (some s.above) .td = some s.labelCell := by
    rw [h.firstChildTagged?_eq, hs.labelCell]
  have hnext : d.nearestAfter? (d.nextSibling? s.labelCell) .td = some s.inputCell := by
    rw [h.nearestAfter?_nextSibling hcells, hinputCell]
  have hinput : d.firstChildTagged? (some s.inputCell) .input = some s.input := by
    rw [h.firstChildTagged?_eq, hs.input]
  simp only [Template.locate?, hanchor, hcontainer, habove, hlabelCell, hnext, hinput,
    Option.bind_eq_bind, Option.bind_some]
  rfl

/-- Every template that is found is the one of a site. -/
theorem exists_of_locate? (ht : Template.locate? d control field = some t) :
    ∃ s : Site, s.Stands d control ∧ s.template d field = t := by
  have hprevious := isSome_previousSibling_of_located ht
  obtain ⟨above, labelCell, input, hanchor, hcontainer, habove, hlabelCell, hinput, hindex, htype,
    hsize, hname⟩ := locate?_eq_some ht
  -- a row with an earlier sibling hangs below its container
  have hparent : d.parent? t.anchor = some t.container := by
    cases hp : d.parent? t.anchor with
    | none => simp [previousSibling?, hp] at hprevious
    | some p =>
      rw [upward?, hp, Option.some_or] at hcontainer
      exact hcontainer
  obtain ⟨before, behind, hsiblings⟩ :=
    List.append_of_mem ((h.mem_children t.container t.anchor).mpr hparent)
  rw [h.nearestBefore?_previousSibling hsiblings] at habove
  rw [h.firstChildTagged?_eq] at hlabelCell
  obtain ⟨earlier, later, hcells⟩ := List.append_of_mem (List.mem_of_find?_eq_some hlabelCell)
  rw [h.nearestAfter?_nextSibling hcells] at hinput
  cases hinputCell : d.firstTagged .td later with
  | none =>
    rw [hinputCell, firstChildTagged?, Option.bind_none, nearestAfter?, path_none] at hinput
    cases hinput
  | some inputCell =>
    rw [hinputCell, h.firstChildTagged?_eq] at hinput
    refine ⟨⟨t.anchor, t.container, before, behind, above, labelCell, inputCell, input⟩,
      ⟨(nearestAbove?_eq_some_iff hup).mp hanchor, hsiblings, habove, hlabelCell,
        ⟨earlier, later, hcells, hinputCell⟩, hinput⟩, ?_⟩
    simp only [template, index, ← hindex, ← htype, ← hsize, ← hname]

end Located

/-! ### The document with a new row -/

/-- The input of a new row has the attributes that are copied to it and its own name. -/
theorem get?_inputAttributes (t : Template) (field : String) (number : Int) (name : String) :
    (t.inputAttributes field number).get? name =
      if name = "name" then some (withIndex t.inputName field number)
      else if name = "type" then t.inputType else if name = "size" then t.inputSize else none := by
  rw [Template.inputAttributes, OrderedMap.get?_insert]
  by_cases hname : name = "name"
  · rw [if_pos hname, if_pos hname]
  rw [if_neg hname, if_neg hname]
  by_cases hsize : name = "size"
  · subst hsize
    rw [get?_copied_self (get?_copied (by decide) _ _), if_neg (by decide), if_pos rfl]
  rw [get?_copied hsize, if_neg hsize]
  by_cases htype : name = "type"
  · subst htype
    rw [get?_copied_self rfl, if_pos rfl]
  · rw [get?_copied htype, if_neg htype]
    rfl

theorem Stands.added {s : Site} (h : WellFormed d) (hs : s.Stands d control) (number : Int) :
    s.Added d field number (d.graft s.container (insertAhead s.anchor d.size)
      [(s.template d field).row field number]) := by
  have hlt : s.container < d.size := h.parent_lt _ _ (hs.parent?_anchor h)
  have hheld := holds_graft d s.container (insertAhead s.anchor d.size)
    ((s.template d field).row field number)
  have hnodup := h.nodup_children s.container
  rw [hs.siblings, List.nodup_append] at hnodup
  have hbefore : s.anchor ∉ s.before := fun hm => hnodup.2.2 _ hm _ List.mem_cons_self rfl
  constructor
  case size => rw [size_graft]; rfl
  case reportsOffsets => rfl
  case row => exact hheld 0 _ rfl
  case labelCell => exact hheld 1 _ rfl
  case label => exact hheld 2 _ rfl
  case inputCell => exact hheld 3 _ rfl
  case input =>
    refine ⟨(s.template d field).inputAttributes field number, hheld 4 _ rfl, fun name => ?_⟩
    rw [get?_inputAttributes]
    by_cases htype : name = "type" <;> by_cases hsize : name = "size" <;>
      simp [template, htype, hsize]
  case container =>
    obtain ⟨x, hx⟩ := exists_node hlt
    rw [node?_graft_old hlt, node?_update, if_pos rfl, hx, Option.map_some, Option.map_some,
      ← children_of_node hx, hs.siblings, insertAhead_append hbefore]
  case old => exact fun n hn hne => node?_graft_other hn hne

end Site

/-- Adding a row to a document that operations can lead to, and in which no node is reached again by
going upwards, is done as a whole or not at all. It is done exactly where the nodes of a site stand
around the control and the copied row shows a number below the last one of 64 bits; then the row
with the next number stands in front of the control's row, and nothing else has changed. Else the
document is the one it was. -/
theorem add_of_reachable (hd : Reachable d) (hloop : ∀ n, ¬ TransGen (Step d.upward?) n n)
    (control : NodeId) (field : String) :
    (∃ s : Site, s.Stands d control ∧ s.index d field < 9223372036854775807 ∧
      ∃ d', add d control field = (some d.size, d') ∧
        s.Added d field (s.index d field + 1) d') ∨
    ((¬ ∃ s : Site, s.Stands d control ∧ s.index d field < 9223372036854775807) ∧
      add d control field = (none, d)) := by
  have h := hd.wellFormed
  have hup := h.acyclic_upward hloop
  cases ht : Template.locate? d control field with
  | none =>
    refine .inr ⟨?_, by rw [add, ht]⟩
    rintro ⟨s, hs, -⟩
    rw [hs.locate? h hup] at ht
    cases ht
  | some t =>
    obtain ⟨s, hs, rfl⟩ := Site.exists_of_locate? h hup ht
    have hindex := fits64_index ht
    have hfit : Text.Fits64 ((s.template d field).index + 1) ↔
        s.index d field < 9223372036854775807 := by
      rw [Site.index_template] at hindex ⊢
      rw [Text.Fits64] at hindex ⊢
      omega
    by_cases hlast : s.index d field < 9223372036854775807
    · have hadd := add_of_placed h ht (hfit.mpr hlast) (hs.parent?_anchor h)
      rw [Site.index_template] at hadd
      exact .inl ⟨s, hs, hlast, _, hadd, hs.added h _⟩
    · refine .inr ⟨?_, ?_⟩
      · rintro ⟨s', hs', hlast'⟩
        -- both sites make the one template that is found
        have heq := Option.some.inj ((hs'.locate? h hup).symm.trans ht)
        have hsame := congrArg Template.index heq
        rw [Site.index_template, Site.index_template] at hsame
        exact hlast (hsame ▸ hlast')
      · have hover := mt hfit.mp hlast
        simp only [add, ht, hover, if_false]

/-- In a table with one row of a field a second one is added in front of the control's row. -/
theorem add_table : (∀ n, ¬ TransGen (Step (after tableOperations).upward?) n n) ∧
    ∃ s : Site, s.Stands (after tableOperations) 9 ∧ s.anchor = 8 ∧ s.container = 2 ∧
      ∃ d', add (after tableOperations) 9 "Port" = (some 10, d') ∧
        s.Added (after tableOperations) "Port" 0 d' := by
  have hsize : (after tableOperations).size = 10 := by decide +kernel
  have hbelow : ∀ n < 10, ((after tableOperations).upward? n).all (· < n) = true := by
    decide +kernel
  have hloop : ∀ n, ¬ TransGen (Step (after tableOperations).upward?) n n := by
    refine irrefl_of_lt fun n m hm => ?_
    have hn : n < 10 := by
      by_contra hn
      rw [upward?_of_size_le (hsize ▸ Nat.le_of_not_lt hn)] at hm
      cases hm
    simpa [hm] using hbelow n hn
  have hlocated : Template.locate? (after tableOperations) 9 "Port" =
      some ⟨8, 2, -1, some "text", none, "Route.Port[-1].Number[0]"⟩ := by decide +kernel
  have hrow : (add (after tableOperations) 9 "Port").1 = some 10 := by decide +kernel
  refine ⟨hloop, ?_⟩
  rcases add_of_reachable ⟨tableOperations, rfl⟩ hloop 9 "Port" with
    ⟨s, hs, -, d', he, hadded⟩ | ⟨-, he⟩
  · have hwf := wellFormed_after tableOperations
    have ht := (hs.locate? hwf (hwf.acyclic_upward hloop)).symm.trans hlocated
    simp only [Site.template, Option.some.injEq, Template.mk.injEq] at ht
    obtain ⟨hanchor, hcontainer, hindex, -⟩ := ht
    rw [hsize] at he
    rw [hindex, show (-1 : Int) + 1 = 0 from rfl] at hadded
    exact ⟨s, hs, hanchor, hcontainer, d', he, hadded⟩
  · rw [he] at hrow
    cases hrow

end Row

end FormPage
