import FormPage.Proofs.Document.Insertion
import FormPage.Proofs.Row.Site
import FormPage.Proofs.Submission.Posted
import Mathlib.Data.List.Find

/-!
What a form posts after a row was added. No node that was there posts anything else, a select above
the new row included, as long as no option shows the text of the new row; of the new nodes only the
input can post, and its pair comes where the row stands in document order. Main statement:
`collect_of_added`.
-/

namespace FormPage

open Document Relation

variable {d d' : Document} {n m p anchor new form control row : NodeId}
  {before behind : List NodeId} {field : String} {number : Int}

/-! ### Old nodes post what they posted -/

namespace Document.InsertedBefore

variable (h : InsertedBefore d d' p anchor new before behind)
include h

theorem inputValue?_kept (hn : n < d.size) : d'.inputValue? n = d.inputValue? n := by
  simp only [inputValue?, h.attribute?_kept hn]

theorem valueOrText_kept (hlt : n < d.size) (hn : ¬ d.AtOrAbove n p) :
    d'.valueOrText n = d.valueOrText n := by
  rw [valueOrText, valueOrText, h.attribute?_kept hlt, h.textContent_of_not_above hlt hn]

/-- A select posts what it posted if none of its options lies above the insertion and none is
new. -/
theorem selectValue?_kept (hnew : ∀ m ∈ d'.preorder new, d'.tag? m ≠ some .option)
    (hoption : ∀ o, d.Above n o → d.AtOrAbove o p → d.tag? o ≠ some .option) (hn : n < d.size) :
    d'.selectValue? n = d.selectValue? n := by
  have hoptions : (d'.descendants n).filter (fun m => d'.tag? m = some .option) =
      (d.descendants n).filter fun m => d.tag? m = some .option :=
    h.filter_descendants (fun m hm => decide_eq_false (hnew m hm))
      (fun m hm => by rw [h.tag?_kept hm]) hn
  have hmem : ∀ m ∈ (d.descendants n).filter (fun m => d.tag? m = some .option),
      m < d.size ∧ ¬ d.AtOrAbove m p := fun m hm => by
    obtain ⟨hm, ht⟩ := List.mem_filter.mp hm
    exact ⟨h.wellFormed.lt_of_mem_descendants hm, fun hr =>
      hoption m (h.wellFormed.mem_descendants.mp hm) hr (of_decide_eq_true ht)⟩
  rw [selectValue?, selectValue?, hoptions]
  generalize (d.descendants n).filter (fun m => d.tag? m = some .option) = options at hmem
  have hselected : (options.find? fun m => (d'.attribute? m "selected").isSome) =
      options.find? fun m => (d.attribute? m "selected").isSome :=
    List.find?_congr fun m hm => by rw [h.attribute?_kept (hmem m hm).1]
  simp only [hselected]
  refine Option.map_congr fun k hk => ?_
  obtain ⟨hlt, hk⟩ := hmem k (mem_of_find?_or_head? hk)
  exact h.valueOrText_kept hlt hk

theorem postedPair?_kept (hnew : ∀ m ∈ d'.preorder new, d'.tag? m ≠ some .option)
    (hoption : ∀ o, d.Above n o → d.AtOrAbove o p → d.tag? o ≠ some .option) (hn : n < d.size) :
    d'.postedPair? n = d.postedPair? n := by
  simp only [postedPair?, h.attribute?_kept hn, h.tag?_kept hn, h.inputValue?_kept hn,
    h.selectValue?_kept hnew hoption hn]

/-- A form without the insertion posts what it posted. -/
theorem collect_of_not_above (hnew : ∀ m ∈ d'.preorder new, d'.tag? m ≠ some .option)
    (hlt : form < d.size) (hn : ¬ d.AtOrAbove form p) : d'.collect form = d.collect form := by
  have hfields : (d.descendants form).filterMap d'.postedPair? =
      (d.descendants form).filterMap d.postedPair? := by
    refine List.filterMap_congr fun m hm => ?_
    refine h.postedPair?_kept hnew (fun o ho hr => ?_) (h.wellFormed.lt_of_mem_descendants hm)
    -- what is above the insertion is not below the form
    have habove := (h.wellFormed.mem_descendants.mp hm).to_reflTransGen
    exact absurd ((hr.trans ho.to_reflTransGen).trans habove) hn
  rw [collect, collect, h.attribute?_kept hlt, h.attribute?_kept hlt,
    h.descendants_of_not_above hlt hn, hfields]

/-- A form around the insertion posts what it posted, and in front of the child what the new nodes
post. -/
theorem collect_of_above (hnew : ∀ m ∈ d'.preorder new, d'.tag? m ≠ some .option)
    (hoption : ∀ o, d.AtOrAbove o p → d.tag? o ≠ some .option) (hn : d.AtOrAbove form p) :
    ∃ earlier later, d.descendants form = earlier ++ anchor :: later ∧
      d'.collect form = { d.collect form with
        fields := earlier.filterMap d.postedPair? ++
          (d'.preorder new).filterMap d'.postedPair? ++
          (anchor :: later).filterMap d.postedPair? } := by
  obtain ⟨earlier, later, hd, hd'⟩ := h.descendants_of_above hn
  have hlt : form < d.size := h.wellFormed.acyclic.lt_of_reaches h.container_lt hn
  have hkept : ∀ m ∈ earlier ++ anchor :: later, d'.postedPair? m = d.postedPair? m :=
    fun m hm => h.postedPair?_kept hnew (fun o _ hr => hoption o hr)
      (h.wellFormed.lt_of_mem_descendants (hd ▸ hm))
  refine ⟨earlier, later, hd, ?_⟩
  rw [collect, collect, h.attribute?_kept hlt, h.attribute?_kept hlt, hd', List.filterMap_append,
    List.filterMap_append,
    List.filterMap_congr fun m hm => hkept m (List.mem_append_left _ hm),
    List.filterMap_congr fun m hm => hkept m (List.mem_append_right _ hm)]

end Document.InsertedBefore

/-! ### What the new nodes post -/

theorem Document.postedPair?_eq_none {t : Tag} (ht : d.tag? n = some t) (hinput : t ≠ .input)
    (hselect : t ≠ .select) : d.postedPair? n = none := by
  cases hp : d.postedPair? n with
  | none => rfl
  | some p =>
    obtain ⟨-, hcontrol⟩ := name_of_postedPair hp
    rw [ht, Option.some.injEq, Option.some.injEq] at hcontrol
    rcases hcontrol with hcontrol | hcontrol
    · exact absurd hcontrol hinput
    · exact absurd hcontrol hselect

namespace Row

open IndexedName (withIndex)

/-- The types of inputs that post nothing as long as nobody has touched them: buttons, and boxes,
which are not checked. -/
def silentTypes : List String := ["button", "submit", "reset", "image", "checkbox", "radio"]

/-- An input without a value and without a check mark posts the empty text, unless it is of a silent
type. -/
theorem inputValue?_of_untouched (hchecked : d.attribute? n "checked" = none)
    (hvalue : d.attribute? n "value" = none) : d.inputValue? n =
      if (d.attribute? n "type").all (Text.lower · ∉ silentTypes) then some "" else none := by
  rw [inputValue?, hchecked, hvalue]
  cases d.attribute? n "type" with
  | none => decide
  | some t =>
    rw [Option.getD_some, Option.all_some]
    generalize Text.lower t = kind
    by_cases hbutton : kind ∈ ["button", "submit", "reset", "image"]
    · have hsilent : kind ∈ silentTypes := List.mem_append_left ["checkbox", "radio"] hbutton
      simp [hbutton, hsilent]
    by_cases hbox : kind ∈ ["checkbox", "radio"]
    · have hsilent : kind ∈ silentTypes :=
        List.mem_append_right ["button", "submit", "reset", "image"] hbox
      simp [hbutton, hbox, hsilent]
    · have hloud : kind ∉ silentTypes := fun hm =>
        (List.mem_append (s := ["button", "submit", "reset", "image"]).mp hm).elim hbutton hbox
      simp [hbutton, hbox, hloud]

namespace Site

variable {s : Site}

/-- What the input of a new row posts: its name with an empty value, unless it has no name or is of
a silent type. -/
def gain (s : Site) (d : Document) (field : String) (number : Int) : List (String × String) :=
  let name := withIndex ((d.attribute? s.input "name").getD "") field number
  if name ≠ "" ∧ (d.attribute? s.input "type").all (Text.lower · ∉ silentTypes) then [(name, "")]
  else []

namespace Added

variable (ha : s.Added d field number d')
include ha

theorem insertedBefore (h : WellFormed d) (h' : WellFormed d') (hs : s.Stands d control) :
    InsertedBefore d d' s.container s.anchor d.size s.before s.behind := by
  obtain ⟨x, hx⟩ := exists_node (h.parent_lt _ _ (hs.parent?_anchor h))
  have hx' := ha.container
  rw [hx, Option.map_some] at hx'
  refine ⟨h, h', by rw [ha.size]; exact Nat.le_add_right _ _, hs.siblings, children_of_node hx', ?_,
    ha.old⟩
  rw [face?_of_node hx, face?_of_node hx']
  rfl

theorem preorder_row (h' : WellFormed d') :
    d'.preorder d.size = [d.size, d.size + 1, d.size + 2, d.size + 3, d.size + 4] := by
  obtain ⟨_, hinput, -⟩ := ha.input
  simp only [h'.preorder_of_node ha.row, h'.preorder_of_node ha.labelCell,
    h'.preorder_of_node ha.label, h'.preorder_of_node ha.inputCell, h'.preorder_of_node hinput,
    List.flatMap_cons, List.flatMap_nil, List.append_nil, List.cons_append, List.nil_append]

theorem tags : d'.tag? d.size = some .tr ∧ d'.tag? (d.size + 1) = some .td ∧
    d'.tag? (d.size + 2) = some .text ∧ d'.tag? (d.size + 3) = some .td ∧
    d'.tag? (d.size + 4) = some .input := by
  obtain ⟨_, hinput, -⟩ := ha.input
  simp only [tag?, ha.row, ha.labelCell, ha.label, ha.inputCell, hinput, Option.map_some, and_self]

theorem tag?_ne_option (h' : WellFormed d') :
    ∀ m ∈ d'.preorder d.size, d'.tag? m ≠ some .option := by
  obtain ⟨hrow, hlabelCell, hlabel, hinputCell, hinput⟩ := ha.tags
  rw [ha.preorder_row h']
  simp [hrow, hlabelCell, hlabel, hinputCell, hinput]

theorem postedPair?_input :
    (d'.postedPair? (d.size + 4)).toList = s.gain d field number := by
  obtain ⟨attributes, hinput, hget⟩ := ha.input
  have hattribute : ∀ k, d'.attribute? (d.size + 4) k = attributes.get? k := fun k => by
    rw [attribute?, hinput, Option.bind_some]
  have hname := (hattribute "name").trans (hget "name")
  have htype := (hattribute "type").trans (hget "type")
  have hchecked := (hattribute "checked").trans (hget "checked")
  have hvalue := (hattribute "value").trans (hget "value")
  rw [if_pos rfl] at hname
  rw [if_neg (by decide), if_pos (by decide)] at htype
  rw [if_neg (by decide), if_neg (by decide)] at hchecked hvalue
  rw [postedPair?, gain, hname, ha.tags.2.2.2.2]
  dsimp only
  rw [inputValue?_of_untouched hchecked hvalue, htype, Option.filter_some]
  generalize withIndex ((d.attribute? s.input "name").getD "") field number = name
  by_cases hempty : name = ""
  · simp [hempty]
  · cases (d.attribute? s.input "type").all (Text.lower · ∉ silentTypes) <;> simp [hempty]

/-- Of the nodes of a new row only the input posts. -/
theorem filterMap_preorder_row (h' : WellFormed d') :
    (d'.preorder d.size).filterMap d'.postedPair? = s.gain d field number := by
  obtain ⟨hrow, hlabelCell, hlabel, hinputCell, -⟩ := ha.tags
  have hrow := postedPair?_eq_none hrow (by decide) (by decide)
  have hlabelCell := postedPair?_eq_none hlabelCell (by decide) (by decide)
  have hlabel := postedPair?_eq_none hlabel (by decide) (by decide)
  have hinputCell := postedPair?_eq_none hinputCell (by decide) (by decide)
  rw [ha.preorder_row h', ← ha.postedPair?_input, List.filterMap_cons_none hrow,
    List.filterMap_cons_none hlabelCell, List.filterMap_cons_none hlabel,
    List.filterMap_cons_none hinputCell]
  cases hp : d'.postedPair? (d.size + 4) with
  | none => rw [List.filterMap_cons_none hp]; rfl
  | some p => rw [List.filterMap_cons_some hp]; rfl

end Added

end Site

/-- In a document that operations can lead to, and in which no node is reached again by going
upwards, a form posts after a row was added what it posted before, and at most one more pair. If the
container of the rows is the form or lies below it, and neither is nor lies below an option, then
the pair is what the new input posts, behind all that the nodes ahead of the control's row post and
in front of all else. A form that the container is not and does not lie below posts what it
posted. -/
theorem collect_of_added (hd : Reachable d) (hloop : ∀ n, ¬ TransGen (Step d.upward?) n n)
    (hadd : add d control field = (some row, d')) :
    ∃ s : Site, s.Stands d control ∧ row = d.size ∧ s.Added d field (s.index d field + 1) d' ∧
      (∀ form, d.AtOrAbove form s.container →
        (∀ o, d.AtOrAbove o s.container → d.tag? o ≠ some .option) →
        ∃ earlier later, d.descendants form = earlier ++ s.anchor :: later ∧
          (d.collect form).fields =
            earlier.filterMap d.postedPair? ++ (s.anchor :: later).filterMap d.postedPair? ∧
          d'.collect form = { d.collect form with
            fields := earlier.filterMap d.postedPair? ++ s.gain d field (s.index d field + 1) ++
              (s.anchor :: later).filterMap d.postedPair? }) ∧
      ∀ form < d.size, ¬ d.AtOrAbove form s.container → d'.collect form = d.collect form := by
  have h := hd.wellFormed
  have h' : WellFormed d' := by
    have hkept := add_kept wellFormed_kept h control field
    rwa [hadd] at hkept
  rcases add_cases h control field with ⟨t, ht, -, hp, he⟩ | ⟨t, he⟩ | he
  · obtain ⟨s, hs, rfl⟩ := Site.exists_of_locate? h (h.acyclic_upward hloop) ht
    obtain ⟨hrow, hd'⟩ := Prod.mk.inj (hadd.symm.trans he)
    have ha : s.Added d field (s.index d field + 1) d' := by
      rw [hd', Site.index_template]
      exact hs.added h _
    have hinserted := ha.insertedBefore h h' hs
    have hnew := ha.tag?_ne_option h'
    refine ⟨s, hs, Option.some.inj hrow, ha, fun form hform hoption => ?_,
      fun form hlt hform => hinserted.collect_of_not_above hnew hlt hform⟩
    obtain ⟨earlier, later, hsplit, hcollect⟩ := hinserted.collect_of_above hnew hoption hform
    rw [ha.filterMap_preorder_row h'] at hcollect
    refine ⟨earlier, later, hsplit, ?_, hcollect⟩
    rw [collect, hsplit, List.filterMap_append]
  · rw [he] at hadd
    cases hadd
  · rw [he] at hadd
    cases hadd

/-- A form with one row of a field and the row of the field's control. -/
def rowsForm : Document :=
  after ([.createElement .form, .appendChild body 2, .createElement .tr, .appendChild 2 3,
    .createElement .td, .appendChild 3 4, .createText "Port 1", .appendChild 4 5,
    .createElement .td, .appendChild 3 6, .createElement .input, .appendChild 6 7,
    .setAttribute 7 "name" "Port[1]", .setAttribute 7 "type" "Text", .createElement .tr,
    .appendChild 2 8, .createElement .input, .appendChild 8 9, .setAttribute 9 "name" "Save"].map
    .call)

/-- The form posts the input of the second row between what it posted before. -/
theorem collect_rowsForm : (∀ n, ¬ TransGen (Step rowsForm.upward?) n n) ∧
    ∃ d', add rowsForm 9 "Port" = (some 10, d') ∧
      ∃ earlier later, rowsForm.descendants 2 = earlier ++ 8 :: later ∧
        d'.collect 2 = { rowsForm.collect 2 with
          fields := earlier.filterMap rowsForm.postedPair? ++ [("Port[2]", "")] ++
            (8 :: later).filterMap rowsForm.postedPair? } := by
  have hd : Reachable rowsForm := ⟨_, rfl⟩
  have hwf := hd.wellFormed
  have hloop : ∀ n, ¬ TransGen (Step rowsForm.upward?) n n :=
    irrefl_of_upward_lt (by decide +kernel)
  have hlocated : Template.locate? rowsForm 9 "Port" =
      some ⟨8, 2, 1, some "Text", none, "Port[1]"⟩ := by decide +kernel
  have hrow : (add rowsForm 9 "Port").1 = some 10 := by decide +kernel
  obtain ⟨d', hadd⟩ : ∃ d', add rowsForm 9 "Port" = (some 10, d') := by
    generalize add rowsForm 9 "Port" = result at hrow ⊢
    exact ⟨result.2, Prod.ext hrow rfl⟩
  obtain ⟨s, hs, -, -, hforms, -⟩ := collect_of_added hd hloop hadd
  have ht := (hs.locate? hwf (hwf.acyclic_upward hloop)).symm.trans hlocated
  simp only [Site.template, Option.some.injEq, Template.mk.injEq] at ht
  obtain ⟨hanchor, hcontainer, hindex, htype, -, hname⟩ := ht
  have hoption : ∀ o, rowsForm.AtOrAbove o 2 → rowsForm.tag? o ≠ some .option := fun o ho => by
    have hall : ∀ o ∈ rowsForm.inclusiveAncestors 2, rowsForm.tag? o ≠ some .option := by
      decide +kernel
    exact hall o (hwf.mem_inclusiveAncestors.mpr ho)
  rw [hcontainer] at hforms
  obtain ⟨earlier, later, hsplit, -, hcollect⟩ := hforms 2 .refl hoption
  have hgain : s.gain rowsForm "Port" (s.index rowsForm "Port" + 1) = [("Port[2]", "")] := by
    rw [Site.gain, hname, hindex, htype]
    decide +kernel
  rw [hanchor, hgain] at hcollect
  rw [hanchor] at hsplit
  exact ⟨hloop, d', hadd, earlier, later, hsplit, hcollect⟩

end Row

end FormPage
