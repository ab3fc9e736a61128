import FormPage.Proofs.Markup.Written

/-!
What markup shows of a tree. An outline is a list of elements and runs of text in which no run is
empty and no two runs stand side by side; an element has its kind, its attributes in their order
with the inline style as the last, and the outline of its content. Texts that stand side by side
give one run, so that the outline is what is left of a tree once nothing but markup is known of it.
-/

namespace FormPage.Markup

open Document

/-- A run of text, or an element with its attributes and its content. -/
inductive Item where
  | text (run : List Char)
  | element (tag : Tag) (attributes : List (String × String)) (content : List Item)

namespace Item

/-- Puts text in front of items: it is joined to the run with which they begin, and an empty text
adds nothing. -/
def prepend (run : List Char) : List Item → List Item
  | .text run' :: items => .text (run ++ run') :: items
  | items => if run = [] then items else .text run :: items

/-- Joins the texts that stand side by side, and drops the empty ones. -/
def join : List Item → List Item
  | [] => []
  | .text run :: items => prepend run (join items)
  | .element tag attributes content :: items => .element tag attributes content :: join items

/-- No text is empty and no two texts stand side by side, neither here nor within an element. -/
def Joined : List Item → Prop
  | [] => True
  | .text run :: items => run ≠ [] ∧ (∀ run', .text run' ∉ items.head?) ∧ Joined items
  | .element _ _ content :: items => Joined content ∧ Joined items

@[simp] theorem prepend_nil_run (items : List Item) : prepend [] items = items := by
  rcases items with _ | ⟨_ | _, items⟩ <;> rfl

@[simp] theorem prepend_element (run : List Char) (tag : Tag)
    (attributes : List (String × String)) (content items : List Item) :
    prepend run (.element tag attributes content :: items) =
      if run = [] then .element tag attributes content :: items
      else .text run :: .element tag attributes content :: items := rfl

/-- Text that is put in front in two steps is put there at once. -/
theorem prepend_prepend (run run' : List Char) (items : List Item) :
    prepend run (prepend run' items) = prepend (run ++ run') items := by
  rcases items with _ | ⟨text | element, items⟩
  · by_cases h : run' = [] <;> simp [prepend, h]
  · simp [prepend]
  · by_cases h : run' = [] <;> simp [prepend, h]

theorem join_text_append (run : List Char) (items : List Item) :
    join (.text run :: items) = prepend run (join items) := rfl

theorem Joined.prepend {items : List Item} (h : Joined items) (run : List Char) :
    Joined (prepend run items) := by
  rcases items with _ | ⟨text | element, items⟩
  · by_cases hrun : run = [] <;> simp [Item.prepend, Joined, hrun]
  · rw [Joined] at h
    obtain ⟨hne, hnext, hitems⟩ := h
    rw [Item.prepend, Joined]
    exact ⟨List.append_ne_nil_of_right_ne_nil _ hne, hnext, hitems⟩
  · by_cases hrun : run = []
    · simpa [Item.prepend, hrun] using h
    · rw [prepend_element, if_neg hrun, Joined]
      exact ⟨hrun, by simp, h⟩

/-- What is joined within every element is joined throughout once it is joined at the top. -/
theorem joined_join {items : List Item}
    (h : ∀ tag attributes content, .element tag attributes content ∈ items → Joined content) :
    Joined (join items) := by
  induction items with
  | nil => simp [join, Joined]
  | cons item items ih =>
    have hitems := ih fun tag attributes content hmem =>
      h tag attributes content (List.mem_cons_of_mem _ hmem)
    cases item with
    | text run => exact hitems.prepend run
    | element tag attributes content =>
      rw [join, Joined]
      exact ⟨h tag attributes content List.mem_cons_self, hitems⟩

end Item

/-- What a node shows, before texts are joined. -/
def itemsOf (x : Node) (content : List (List Item)) : List Item :=
  if x.tag = .text then [.text x.text.toList]
  else [.element x.tag (shownAttributes x) (Item.join content.flatten)]

/-- What a node and all below it show, before texts are joined; nothing for an index that names no
node. -/
def items (d : Document) (n : NodeId) : List Item :=
  d.fold (fun _ x content => itemsOf x content) [] n

/-- The outline of a node and all below it. -/
def outline (d : Document) (n : NodeId) : List Item := Item.join (items d n)

variable {d : Document} {n : NodeId}

theorem items_of_node (h : WellFormed d) {x : Node} (hx : d.node? n = some x) :
    items d n = itemsOf x ((d.children n).map (items d)) :=
  h.fold_of_node hx (fun _ x content => itemsOf x content) []

theorem items_of_size_le (hn : d.size ≤ n) : items d n = [] := by
  rw [items, fold, foldFrom, node?_eq_none_iff.mpr hn]

theorem joined_of_mem_items (h : WellFormed d) (n : NodeId) : ∀ tag attributes content,
    .element tag attributes content ∈ items d n → Item.Joined content := by
  induction n using h.below_induction with
  | hP n ih =>
    cases hx : d.node? n with
    | none => simp [items_of_size_le (node?_eq_none_iff.mp hx)]
    | some x =>
      intro tag attributes content hmem
      rw [items_of_node h hx, itemsOf] at hmem
      split at hmem
      · simp at hmem
      · obtain ⟨-, -, rfl⟩ := Item.element.inj (List.mem_singleton.mp hmem)
        refine Item.joined_join fun tag attributes content hmem => ?_
        obtain ⟨shown, hshown, hmem⟩ := List.mem_flatten.mp hmem
        obtain ⟨c, hc, rfl⟩ := List.mem_map.mp hshown
        exact ih c hc tag attributes content hmem

/-- In an outline all texts that stand side by side are joined. -/
theorem joined_outline (h : WellFormed d) (n : NodeId) : Item.Joined (outline d n) :=
  Item.joined_join (joined_of_mem_items h n)

end FormPage.Markup
