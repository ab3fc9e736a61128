import FormPage.Proofs.Document.Reachable
import FormPage.Proofs.Document.Readings
import FormPage.Proofs.Document.Search
import FormPage.Proofs.Row.IndexedName
import FormPage.Proofs.Row.Insert
import FormPage.Proofs.Row.Label

/-!
Rows that are added again and again. A row that was added is found as the template of the next one:
it stands right above the control's row, its first cell shows the number it was given, and its
second cell holds its input. The template that is found after adding is therefore the one that was
found before, counted on by one, and `k` rows that are added one after the other stand in a block in
front of the control's row and show the next `k` numbers.
-/

namespace FormPage

open Document

variable {d d' : Document} {control p n a : NodeId} {field : String} {tag : Tag} {number : Int}
  {s : NodeSpec} {t : Row.Template} {pre post : List NodeId}

namespace Document

/-- The text of a node whose only child is a text. -/
theorem WellFormed.textContent_of_single (h : WellFormed d) {c : NodeId} {x y : Node}
    (hx : d.node? n = some x) (htag : x.tag ≠ .text) (hchildren : x.children = [c])
    (hy : d.node? c = some y) (hytag : y.tag = .text) : d.textContent n = y.text := by
  rw [textContent, h.fold_of_node hx, if_neg htag, children_of_node hx, hchildren,
    List.map_singleton, h.fold_of_node hy, if_pos hytag]
  simp

end Document

namespace Row

open IndexedName (withIndex withIndex_withIndex withIndex_injective)

/-! ### The row of a field -/

/-- A table row of two cells, of which the first shows a label and the second holds an input with a
name, a type and a size. -/
def IsEntry (d : Document) (row : NodeId) (label name : String)
    (inputType inputSize : Option String) : Prop :=
  ∃ labelCell inputCell input : NodeId,
    d.tag? row = some .tr ∧ d.children row = [labelCell, inputCell] ∧
    d.tag? labelCell = some .td ∧ d.textContent labelCell = label ∧
    d.tag? inputCell = some .td ∧ d.children inputCell = [input] ∧
    d.tag? input = some .input ∧ d.attribute? input "name" = some name ∧
    d.attribute? input "type" = inputType ∧ d.attribute? input "size" = inputSize

theorem attribute?_input {input : NodeId} {x : Node} (hx : d.node? input = some x)
    (hattributes : x.attributes = t.inputAttributes field number) :
    d.attribute? input "name" = some (withIndex t.inputName field number) ∧
      d.attribute? input "type" = t.inputType ∧ d.attribute? input "size" = t.inputSize := by
  have hget : ∀ k, d.attribute? input k = (t.inputAttributes field number).get? k := fun k => by
    rw [attribute?, hx, Option.bind_some, hattributes]
  refine ⟨?_, ?_, ?_⟩
  · rw [hget, Template.inputAttributes, OrderedMap.get?_insert, if_pos rfl]
  · rw [hget, Template.inputAttributes, OrderedMap.get?_insert, if_neg (by decide),
      get?_copied (by decide), get?_copied_self rfl]
  · rw [hget, Template.inputAttributes, OrderedMap.get?_insert, if_neg (by decide),
      get?_copied_self (get?_copied (by decide) _ _)]

/-- A row that is laid out is the entry that its description describes. -/
theorem isEntry_of_holds (h : WellFormed d) {row : NodeId}
    (hrow : d.Holds p row (t.row field number)) :
    IsEntry d row (Label.text field number) (withIndex t.inputName field number) t.inputType
      t.inputSize := by
  have htop := hrow 0 _ rfl
  have hlabelCell := hrow 1 _ rfl
  have hlabel := hrow 2 _ rfl
  have hinputCell := hrow 3 _ rfl
  have hinput := hrow 4 _ rfl
  have htd : Tag.td ≠ .text := by decide
  have htext : d.textContent (row + 1) = Label.text field number :=
    h.textContent_of_single hlabelCell htd rfl hlabel rfl
  rw [Nat.add_zero] at htop
  refine ⟨row + 1, row + 3, row + 4, ?_, children_of_node htop, ?_, htext, ?_,
    children_of_node hinputCell, ?_, attribute?_input hinput rfl⟩
  · rw [tag?, htop]; rfl
  · rw [tag?, hlabelCell]; rfl
  · rw [tag?, hinputCell]; rfl
  · rw [tag?, hinput]; rfl

/-- An entry right above the control's row is the template that is found. -/
theorem locate?_of_entry (h : WellFormed d) {anchor container row : NodeId} {label name : String}
    {inputType inputSize : Option String}
    (hanchor : d.nearestAbove? (some control) .tr = some anchor)
    (hcontainer : d.upward? anchor = some container)
    (hchildren : d.children container = pre ++ row :: anchor :: post)
    (hrow : IsEntry d row label name inputType inputSize) :
    Template.locate? d control field = some {
      anchor, container, index := Label.number label field, inputType, inputSize,
      inputName := name } := by
  obtain ⟨labelCell, inputCell, input, htr, hcells, htd, htext, htd', hinputs, hinput, hname, htype,
    hsize⟩ := hrow
  have hsplit : d.children container = (pre ++ [row]) ++ anchor :: post := by simpa using hchildren
  have hprevious : d.previousSibling? anchor = some row := by
    rw [h.previousSibling?_of_children hsplit, List.getLast?_concat]
  have habove : d.nearestBefore? (d.previousSibling? anchor) .tr = some row := by
    rw [hprevious, nearestBefore?, firstTagged_path _ htr]
  have hlabelCell : d.firstChildTagged? (some row) .td = some labelCell := by
    rw [firstChildTagged?, Option.bind_some, firstChild?, hcells, List.head?_cons, nearestAfter?,
      firstTagged_path _ htd]
  have hcells' : d.children row = [] ++ labelCell :: [inputCell] := hcells
  have hnext : d.nextSibling? labelCell = some inputCell := by
    rw [h.nextSibling?_of_children hcells', List.head?_cons]
  have hinputCell : d.nearestAfter? (d.nextSibling? labelCell) .td = some inputCell := by
    rw [hnext, nearestAfter?, firstTagged_path _ htd']
  have hfound : d.firstChildTagged? (some inputCell) .input = some input := by
    rw [firstChildTagged?, Option.bind_some, firstChild?, hinputs, List.head?_cons, nearestAfter?,
      firstTagged_path _ hinput]
  simp [Template.locate?, hanchor, hcontainer, habove, hlabelCell, hinputCell, hfound, htext, htype,
    hsize, hname]

/-! ### One more row -/

/-- The template that is found after its row was added. -/
def Template.next (t : Template) (field : String) : Template :=
  { t with
    index := t.index + 1
    inputName := withIndex t.inputName field (t.index + 1) }

@[simp] theorem Template.index_next (t : Template) (field : String) :
    (t.next field).index = t.index + 1 := rfl

/-- A new row of the next template is a new row of the template. -/
theorem Template.row_next (t : Template) (field : String) (number : Int) :
    (t.next field).row field number = t.row field number := by
  rw [row, row, inputAttributes, inputAttributes, next, withIndex_withIndex]

/-- The document with the next row of a template in front of the control's row. -/
def Template.grow (t : Template) (field : String) (d : Document) : Document :=
  d.graft t.container (insertAhead t.anchor d.size) [t.row field (t.index + 1)]

/-- The rows around a control are found, and its own row hangs below the node that holds them. -/
structure Placed (d : Document) (control : NodeId) (field : String) (t : Template) : Prop where
  wellFormed : WellFormed d
  above : d.nearestAbove? (some control) .tr = some t.anchor
  anchored : d.parent? t.anchor = some t.container
  located : Template.locate? d control field = some t

namespace Placed

variable (h : Placed d control field t)
include h

theorem container_lt : t.container < d.size := h.wellFormed.parent_lt _ _ h.anchored

/-- Where the next number fits, adding a row grows the document by that row. -/
theorem add_eq (hfit : Text.Fits64 (t.index + 1)) :
    add d control field = (some d.size, t.grow field d) :=
  add_of_placed h.wellFormed h.located hfit h.anchored

theorem children_grow (hchildren : d.children t.container = pre ++ t.anchor :: post) :
    (t.grow field d).children t.container = pre ++ d.size :: t.anchor :: post := by
  have hnodup := h.wellFormed.nodup_children t.container
  rw [hchildren, List.nodup_append] at hnodup
  rw [Template.grow, children_graft_old h.container_lt, if_pos rfl, hchildren]
  exact insertAhead_append fun hm => hnodup.2.2 _ hm _ List.mem_cons_self rfl

/-- The row that was added is the template of the next one. -/
theorem placed_grow (hfit : Text.Fits64 (t.index + 1)) :
    Placed (t.grow field d) control field (t.next field) := by
  obtain ⟨pre, post, hchildren⟩ :=
    List.append_of_mem ((h.wellFormed.mem_children _ _).mpr h.anchored)
  have hanchor := lt_size_of_parent h.anchored
  have hwf : WellFormed (t.grow field d) := by
    have hkept := add_kept wellFormed_kept h.wellFormed control field
    rwa [h.add_eq hfit] at hkept
  have habove : (t.grow field d).nearestAbove? (some control) .tr = some t.anchor :=
    h.wellFormed.nearestAbove?_graft h.above
  have hparent : (t.grow field d).parent? t.anchor = some t.container := by
    rw [Template.grow, parent?_graft_old hanchor, h.anchored]
  have hup : (t.grow field d).upward? t.anchor = some t.container := by
    rw [upward?, hparent]
    rfl
  refine ⟨hwf, habove, hparent, ?_⟩
  rw [locate?_of_entry hwf habove hup (h.children_grow hchildren)
    (isEntry_of_holds hwf (holds_graft _ _ _ _)), Label.number_text field hfit]
  rfl

end Placed

/-! ### Many more rows -/

/-- Adds a row to a field `k` times: the answers, first one first, and the document after them. -/
def addTimes (control : NodeId) (field : String) : Nat → Document → List (Option NodeId) × Document
  | 0, d => ([], d)
  | k + 1, d =>
    let (row, grown) := add d control field
    let (rows, last) := addTimes control field k grown
    (row :: rows, last)

theorem addTimes_succ {row : Option NodeId} (h : add d control field = (row, d')) (k : Nat) :
    addTimes control field (k + 1) d =
      (row :: (addTimes control field k d').1, (addTimes control field k d').2) := by
  rw [addTimes, h]

/-- What adding rows in front of the control's row leaves: the rows are new and stand in a block,
they show the numbers that follow the template's one, and older nodes stay, the container apart. -/
structure Counted (t : Template) (field : String) (d d' : Document) (pre post : List NodeId)
    (rows : List NodeId) : Prop where
  children : d'.children t.container = pre ++ rows ++ t.anchor :: post
  kept : ∀ n < d.size, n ≠ t.container → d'.node? n = d.node? n
  new : ∀ row ∈ rows, d.size ≤ row
  holds : ∀ (j : Nat) (row : NodeId), rows[j]? = some row →
    d'.Holds t.container row (t.row field (t.index + (j + 1 : Nat)))

theorem Counted.cons (hlt : t.container < d.size) {rows : List NodeId}
    (h : Counted (t.next field) field (t.grow field d) d' (pre ++ [d.size]) post rows) :
    Counted t field d d' pre post (d.size :: rows) := by
  have hsize : d.size ≤ (t.grow field d).size := by
    rw [Template.grow, size_graft]
    exact Nat.le_add_right _ _
  refine ⟨?_, fun n hn hne => ?_, fun row hrow => ?_, fun j row hj => ?_⟩
  · have hchildren := h.children
    rw [List.append_assoc pre] at hchildren
    exact hchildren
  · rw [h.kept n (Nat.lt_of_lt_of_le hn hsize) hne, Template.grow, node?_graft_other hn hne]
  · rcases List.mem_cons.mp hrow with rfl | hrow
    · exact Nat.le_refl _
    · exact Nat.le_trans hsize (h.new row hrow)
  · cases j with
    | zero =>
      cases hj
      -- the nodes of the new row are no older than it, and the container is
      refine (holds_graft d t.container _ _).of_kept fun n hn hlt' => h.kept n hlt' ?_
      exact Nat.ne_of_gt (Nat.lt_of_lt_of_le hlt hn)
    | succ j =>
      have hrow := h.holds j row hj
      rw [Template.row_next] at hrow
      have hindex : (t.next field).index + (j + 1 : Nat) = t.index + (j + 1 + 1 : Nat) := by
        rw [Template.index_next]
        omega
      rwa [hindex] at hrow

/-- As many rows are added as there are numbers left. -/
theorem Placed.counted : ∀ (k : Nat) {d : Document} {t : Template} {pre post : List NodeId},
    Placed d control field t → d.children t.container = pre ++ t.anchor :: post →
    Text.Fits64 t.index → Text.Fits64 (t.index + k) →
    ∃ rows : List NodeId, (addTimes control field k d).1 = rows.map some ∧ rows.length = k ∧
      WellFormed (addTimes control field k d).2 ∧
      Counted t field d (addTimes control field k d).2 pre post rows
  | 0, d, t, pre, post, h, hchildren, _, _ => by
    refine ⟨[], rfl, rfl, h.wellFormed, ?_, fun _ _ _ => rfl, nofun, nofun⟩
    rw [List.append_nil]
    exact hchildren
  | k + 1, d, t, pre, post, h, hchildren, hfirst, hlast => by
    have hfit : Text.Fits64 (t.index + 1) := ⟨by have := hfirst.1; omega, by have := hlast.2; omega⟩
    have hrest : (t.next field).index + k = t.index + (k + 1 : Nat) := by
      rw [Template.index_next]
      omega
    have hgrown : (t.grow field d).children t.container =
        (pre ++ [d.size]) ++ t.anchor :: post := by
      rw [h.children_grow hchildren, List.append_assoc]
      rfl
    obtain ⟨rows, hanswers, hlength, hwf, hcounted⟩ :=
      Placed.counted k (h.placed_grow hfit) hgrown hfit (hrest ▸ hlast)
    rw [addTimes_succ (h.add_eq hfit)]
    refine ⟨d.size :: rows, ?_, ?_, hwf, hcounted.cons h.container_lt⟩
    · rw [List.map_cons, hanswers]
    · rw [List.length_cons, hlength]

theorem fits64_index (h : Template.locate? d control field = some t) : Text.Fits64 t.index := by
  obtain ⟨_, _, _, -, -, -, -, -, hindex, -⟩ := locate?_eq_some h
  rw [hindex]
  exact Label.fits64_number _ _

/-- A row is added only where the rows are found and there is a number left. -/
theorem placed_of_added (h : WellFormed d) {row : NodeId}
    (hadd : (add d control field).1 = some row) :
    ∃ t, Placed d control field t ∧ Text.Fits64 (t.index + 1) := by
  rcases add_cases h control field with ⟨t, ht, hfit, hp, -⟩ | ⟨t, ht⟩ | hnone
  · obtain ⟨-, -, -, hanchor, -⟩ := locate?_eq_some ht
    exact ⟨t, ⟨h, hanchor, hp, ht⟩, hfit⟩
  · rw [ht] at hadd
    cases hadd
  · rw [hnone] at hadd
    cases hadd

/-- Adding counts on without gaps. If one row can be added in a document, with a template whose row
shows the number `i`, then as many as there are numbers left can: `k` rows come to stand in a block
right in front of the control's row, in the order in which they were added, the `j`-th shows the
field and `i + j`, and its input has the template's name renumbered to `i + j` and the template's
type and size. Where the template's name mentions the field, all their names differ. -/
theorem added_entries (hd : Reachable d) {first : NodeId}
    (hfirst : (add d control field).1 = some first) :
    ∃ (t : Template) (pre post : List NodeId),
      Template.locate? d control field = some t ∧
      d.nearestAbove? (some control) .tr = some t.anchor ∧
      d.children t.container = pre ++ t.anchor :: post ∧
      ∀ k : Nat, t.index + k ≤ 9223372036854775807 → ∃ rows : List NodeId, rows.length = k ∧
        (∀ row ∈ rows, d.size ≤ row) ∧ (addTimes control field k d).1 = rows.map some ∧
        (addTimes control field k d).2.children t.container = pre ++ rows ++ t.anchor :: post ∧
        (∀ (j : Nat) (row : NodeId), rows[j]? = some row →
          IsEntry (addTimes control field k d).2 row
            (field ++ " " ++ Text.showInt (t.index + (j + 1 : Nat)))
            (withIndex t.inputName field (t.index + (j + 1 : Nat))) t.inputType t.inputSize) ∧
        ((∃ pre mid post : List Char, '\n' ∉ mid ∧
            t.inputName.toList = pre ++ (field.toList ++ (mid ++ ']' :: post))) →
          ((List.range k).map fun j =>
            withIndex t.inputName field (t.index + (j + 1 : Nat))).Nodup) := by
  obtain ⟨t, hplaced, -⟩ := placed_of_added hd.wellFormed hfirst
  obtain ⟨pre, post, hchildren⟩ :=
    List.append_of_mem ((hd.wellFormed.mem_children _ _).mpr hplaced.anchored)
  refine ⟨t, pre, post, hplaced.located, hplaced.above, hchildren, fun k hk => ?_⟩
  have hindex := fits64_index hplaced.located
  have hlast : Text.Fits64 (t.index + k) := ⟨by have := hindex.1; omega, by omega⟩
  obtain ⟨rows, hanswers, hlength, hwf, hcounted⟩ := hplaced.counted k hchildren hindex hlast
  refine ⟨rows, hlength, hcounted.new, hanswers, hcounted.children,
    fun j row hj => isEntry_of_holds hwf (hcounted.holds j row hj), ?_⟩
  rintro ⟨left, mid, right, hmid, hname⟩
  refine List.Nodup.map (fun i j hij => ?_) List.nodup_range
  have := withIndex_injective hmid hname hij
  omega

/-- A table with one row of a field, numbered below zero, and the row of the field's control. -/
def tableOperations : List Operation := [
  .call (.createElement .table), .call (.appendChild body 2),
  .call (.createElement .tr), .call (.appendChild 2 3),
  .call (.createElement .td), .call (.appendChild 3 4),
  .call (.createText "Port -1"), .call (.appendChild 4 5),
  .call (.createElement .td), .call (.appendChild 3 6),
  .call (.createElement .input), .call (.appendChild 6 7),
  .call (.setAttribute 7 "name" "Route.Port[-1].Number[0]"), .call (.setAttribute 7 "type" "text"),
  .call (.createElement .tr), .call (.appendChild 2 8),
  .call (.createElement .button), .call (.appendChild 8 9)]

/-- Five hundred rows, numbered from zero on. -/
theorem added_entries_table : (add (after tableOperations) 9 "Port").1 = some 10 ∧
    ∃ rows pre post : List NodeId, rows.length = 500 ∧
      (addTimes 9 "Port" 500 (after tableOperations)).1 = rows.map some ∧
      (addTimes 9 "Port" 500 (after tableOperations)).2.children 2 = pre ++ rows ++ 8 :: post ∧
      (∀ (j : Nat) (row : NodeId), rows[j]? = some row →
        IsEntry (addTimes 9 "Port" 500 (after tableOperations)).2 row
          ("Port" ++ " " ++ Text.showInt (-1 + (j + 1 : Nat)))
          (withIndex "Route.Port[-1].Number[0]" "Port" (-1 + (j + 1 : Nat))) (some "text") none) ∧
      ((List.range 500).map fun j =>
        withIndex "Route.Port[-1].Number[0]" "Port" (-1 + (j + 1 : Nat))).Nodup := by
  have hfirst : (add (after tableOperations) 9 "Port").1 = some 10 := by decide +kernel
  have hlocated : Template.locate? (after tableOperations) 9 "Port" =
      some ⟨8, 2, -1, some "text", none, "Route.Port[-1].Number[0]"⟩ := by decide +kernel
  obtain ⟨t, pre, post, ht, -, -, hrows⟩ := added_entries ⟨tableOperations, rfl⟩ hfirst
  obtain rfl := Option.some.inj (ht.symm.trans hlocated)
  obtain ⟨rows, hlength, -, hanswers, hblock, hentries, hnames⟩ := hrows 500 (by decide)
  exact ⟨hfirst, rows, pre, post, hlength, hanswers, hblock, hentries,
    hnames ⟨"Route.".toList, "[-1].Number[0".toList, [], by decide, by decide⟩⟩

end Row

end FormPage
