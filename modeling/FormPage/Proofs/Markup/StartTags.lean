import FormPage.Proofs.Markup.Reading
import FormPage.Proofs.OrderedMap
import FormPage.Proofs.Page.Styles

/-!
Start tags. Markup is written piece by piece: runs of text, start tags and end tags (`pieces`). The
start tags are those of the elements below, in document order, and where names can be read back they
are the ones that a reader sees. A start tag names an attribute twice exactly for an element that
has both an attribute `style` and a style of its own. Main statement: no start tag of a page does,
whatever events were delivered to it, if no such element is attached; and such an element was
described with an attribute `style`, and with a style or the reserved id besides.
-/

namespace FormPage

open Document
open NodeSpec (flatAll)

namespace Markup

/-- A piece of markup. -/
inductive Piece where
  /-- A run of text. -/
  | text (run : List Char)
  /-- The start tag of an element, which closes a void element as well. -/
  | start (tag : Tag) (attributes : List (String × String))
  /-- The end tag of an element. -/
  | stop (tag : Tag)

namespace Piece

/-- How a piece is written. -/
def chars : Piece → List Char
  | text run => escapeText run
  | start tag attributes => '<' :: tag.markupName.toList ++ attributes.flatMap written ++
      if tag.isVoid then [' ', '/', '>'] else ['>']
  | stop tag => endTag tag

/-- The attributes of a start tag. -/
def attributes? : Piece → Option (List (String × String))
  | start _ attributes => some attributes
  | _ => none

end Piece

/-- The pieces of a node, around those of its content. -/
def piecesOf (x : Node) (content : List (List Piece)) : List Piece :=
  if x.tag = .text then [.text x.text.toList]
  else .start x.tag (shownAttributes x) ::
    if x.tag.isVoid then [] else content.flatten ++ [.stop x.tag]

/-- The pieces of a node and all below it, nothing for an index that names no node. -/
def pieces (d : Document) (n : NodeId) : List Piece :=
  d.fold (fun _ x content => piecesOf x content) [] n

/-- The attributes of the start tags that are written for a node and all below it. -/
def startTags (d : Document) (n : NodeId) : List (List (String × String)) :=
  (pieces d n).filterMap Piece.attributes?

/-- The attributes of the start tags in an outline. -/
def Item.startTags : List Item → List (List (String × String))
  | [] => []
  | .text _ :: items => startTags items
  | .element _ attributes content :: items =>
    attributes :: (startTags content ++ startTags items)

variable {d : Document} {n : NodeId} {x : Node}

/-! ### Markup by pieces -/

theorem pieces_of_node (h : WellFormed d) (hx : d.node? n = some x) :
    pieces d n = piecesOf x ((d.children n).map (pieces d)) :=
  h.fold_of_node hx (fun _ x content => piecesOf x content) []

theorem pieces_of_size_le (hn : d.size ≤ n) : pieces d n = [] := by
  rw [pieces, fold, foldFrom, node?_eq_none_iff.mpr hn]

theorem flatMap_piecesOf (x : Node) (content : List (List Piece)) :
    (piecesOf x content).flatMap Piece.chars =
      element x (content.map (List.flatMap Piece.chars)) := by
  have hcontent : content.flatten.flatMap Piece.chars =
      (content.map (List.flatMap Piece.chars)).flatten := by
    induction content with
    | nil => rfl
    | cons below content ih => simp [ih]
  rw [piecesOf, element]
  split
  · simp [Piece.chars]
  · rw [List.flatMap_cons, Piece.chars, ← attributes_eq]
    split
    · simp
    · simp [Piece.chars, endTag, hcontent]

/-- Markup is what its pieces are written as. -/
theorem chars_eq_flatMap (h : WellFormed d) (n : NodeId) :
    chars d n = (pieces d n).flatMap Piece.chars := by
  induction n using h.below_induction with
  | hP n ih =>
    cases hx : d.node? n with
    | none =>
      have hn := node?_eq_none_iff.mp hx
      rw [chars_of_size_le hn, pieces_of_size_le hn, List.flatMap_nil]
    | some x =>
      rw [chars_of_node h hx, pieces_of_node h hx, flatMap_piecesOf, List.map_map]
      congr 1
      exact List.map_congr_left ih

/-! ### Start tags -/

/-- The attributes that are shown of an element. -/
def shown? (d : Document) (n : NodeId) : Option (List (String × String)) :=
  (d.node? n).bind fun x => if x.tag = .text then none else some (shownAttributes x)

/-- The start tags of a node are its own and those of its children. -/
theorem startTags_of_node (h : WellFormed d) (hx : d.node? n = some x) :
    startTags d n = (shown? d n).toList ++ (d.children n).flatMap (startTags d) := by
  have hbelow : ((d.children n).map (pieces d)).flatten.filterMap Piece.attributes? =
      (d.children n).flatMap (startTags d) := by
    rw [List.filterMap_flatten, List.map_map]
    rfl
  have hvoid : x.tag.isVoid = true → d.children n = [] :=
    h.void_empty n x.tag (by rw [tag?, hx]; rfl)
  rw [startTags, pieces_of_node h hx, piecesOf, shown?, hx, Option.bind_some]
  by_cases htext : x.tag = .text
  · simp [htext, hvoid (by rw [htext]; rfl), Piece.attributes?]
  · rw [if_neg htext, if_neg htext]
    by_cases hv : x.tag.isVoid = true
    · simp [hv, hvoid hv, Piece.attributes?]
    · simp [hv, hbelow, Piece.attributes?]

/-- Every attached element has a start tag, in document order. -/
theorem startTags_eq (h : WellFormed d) (n : NodeId) :
    startTags d n = (d.preorder n).filterMap (shown? d) := by
  induction n using h.below_induction with
  | hP n ih =>
    cases hx : d.node? n with
    | none =>
      have hn := node?_eq_none_iff.mp hx
      rw [startTags, pieces_of_size_le hn, WellFormed.preorder_of_size_le hn]
      rfl
    | some x =>
      rw [startTags_of_node h hx, h.preorder_of_lt (lt_size_of_node hx), List.filterMap_cons,
        List.filterMap_flatMap, List.flatMap_congr ih]
      cases shown? d n <;> rfl

theorem Item.startTags_append (items items' : List Item) :
    startTags (items ++ items') = startTags items ++ startTags items' := by
  induction items with
  | nil => simp [startTags]
  | cons item items ih =>
    cases item with
    | text run => simpa [startTags] using ih
    | element tag attributes content => simp [startTags, ih]

@[simp] theorem Item.startTags_prepend (run : List Char) (items : List Item) :
    startTags (prepend run items) = startTags items := by
  rcases items with _ | ⟨text | element, items⟩
  · by_cases hrun : run = [] <;> simp [prepend, startTags, hrun]
  · simp [prepend, startTags]
  · by_cases hrun : run = [] <;> simp [startTags, hrun]

/-- Joining texts changes no start tag. -/
@[simp] theorem Item.startTags_join (items : List Item) :
    startTags (join items) = startTags items := by
  induction items with
  | nil => simp [join]
  | cons item items ih =>
    cases item with
    | text run => simp [join, startTags, ih]
    | element tag attributes content => simp [join, startTags, ih]

theorem startTags_items (h : WellFormed d) (n : NodeId) :
    Item.startTags (items d n) = startTags d n := by
  induction n using h.below_induction with
  | hP n ih =>
    cases hx : d.node? n with
    | none =>
      have hn := node?_eq_none_iff.mp hx
      simp [items_of_size_le hn, startTags, pieces_of_size_le hn, Item.startTags]
    | some x =>
      have hbelow : ∀ ns ⊆ d.children n, Item.startTags ((ns.map (items d)).flatten) =
          ns.flatMap (startTags d) := by
        intro ns hns
        induction ns with
        | nil => simp [Item.startTags]
        | cons c ns ihns =>
          have hc := ih c (hns List.mem_cons_self)
          have hrest := ihns fun m hm => hns (List.mem_cons_of_mem _ hm)
          simp [Item.startTags_append, hc, hrest]
      have hvoid : x.tag = .text → d.children n = [] := fun htext =>
        h.void_empty n x.tag (by rw [tag?, hx]; rfl) (by rw [htext]; rfl)
      rw [items_of_node h hx, itemsOf, startTags_of_node h hx, shown?, hx, Option.bind_some]
      by_cases htext : x.tag = .text
      · simp [htext, hvoid htext, Item.startTags]
      · simp [htext, Item.startTags, hbelow _ (List.Subset.refl _)]

/-- The reader sees the start tags that were written. -/
theorem startTags_read (h : WellFormed d) (hn : LegibleBelow d n) :
    (read (render d n)).map Item.startTags = some (startTags d n) := by
  rw [read_eq_outline h hn, Option.map_some, outline, Item.startTags_join, startTags_items h]

/-! ### Names in a start tag -/

/-- Only an own attribute `style` beside a style makes a name stand twice. -/
theorem nodup_shownAttributes (x : Node) : ((shownAttributes x).map Prod.fst).Nodup ↔
    ¬ (x.attributes.get? "style" ≠ none ∧ x.style.isDefault = false) := by
  have hnodup := x.attributes.nodup
  rw [shownAttributes, List.map_append, Ne, OrderedMap.get?_eq_none_iff, not_not]
  cases hstyle : x.style.isDefault with
  | true => simpa using hnodup
  | false =>
    constructor
    · rintro hall ⟨hmem, -⟩
      exact (List.nodup_append.mp hall).2.2 _ hmem _ List.mem_cons_self rfl
    · intro hnot
      refine List.nodup_append.mpr ⟨hnodup, List.nodup_singleton _, ?_⟩
      rintro name hmem _ hshown rfl
      obtain rfl : name = "style" := List.mem_singleton.mp hshown
      exact hnot ⟨hmem, rfl⟩

/-- The attributes in the start tags are those that are shown of the attached elements. -/
theorem mem_startTags (h : WellFormed d) {attributes : List (String × String)} :
    attributes ∈ startTags d n ↔
      ∃ m ∈ d.preorder n, ∃ x, d.node? m = some x ∧ x.tag ≠ .text ∧
        shownAttributes x = attributes := by
  rw [startTags_eq h, List.mem_filterMap]
  simp only [shown?, Option.bind_eq_some_iff, Option.ite_none_left_eq_some, Option.some.injEq]

theorem styledTwice_iff (hx : d.node? n = some x) : d.StyledTwice n ↔
    x.attributes.get? "style" ≠ none ∧ x.style.isDefault = false := by
  simp [StyledTwice, attribute?, style?, hx]

/-- No start tag names an attribute twice exactly if no element below is styled twice. -/
theorem nodup_startTags (h : WellFormed d) (n : NodeId) :
    (∀ attributes ∈ startTags d n, (attributes.map Prod.fst).Nodup) ↔
      ∀ m ∈ d.preorder n, ¬ d.StyledTwice m := by
  constructor
  · rintro hall m hm htwice
    have hlt : m < d.size := by
      by_contra hge
      exact htwice.1 (attribute?_of_size_le (Nat.le_of_not_lt hge) "style")
    obtain ⟨x, hx⟩ := exists_node hlt
    have htwice' := (styledTwice_iff hx).mp htwice
    have htext : x.tag ≠ .text := by
      intro htext
      have hbare : x.attributes = ∅ := h.text_bare m x.face (face?_of_node hx) htext
      exact htwice'.1 (by rw [hbare]; rfl)
    have hmem := (mem_startTags h).mpr ⟨m, hm, x, hx, htext, rfl⟩
    exact (nodup_shownAttributes x).mp (hall _ hmem) htwice'
  · rintro hnone attributes hmem
    obtain ⟨m, hm, x, hx, -, rfl⟩ := (mem_startTags h).mp hmem
    exact (nodup_shownAttributes x).mpr fun htwice => hnone m hm ((styledTwice_iff hx).mpr htwice)

/-- Whatever events were delivered to a loaded page, its markup is made up of pieces of which the
start tags are those that a reader sees. No start tag names an attribute twice exactly if no
attached element has both an attribute `style` and a style that is not the default one; and every
such element was described with an attribute `style`, and with a style or the reserved id. -/
theorem startTags_after {spec : PageSpec} {p : Page} (h : spec.build = .ok p)
    (es : List Page.Delivery) :
    let d := (p.after es).document
    (render d root).toList = (pieces d root).flatMap Piece.chars ∧
      (LegibleBelow d root → (read (render d root)).map Item.startTags = some (startTags d root)) ∧
      ((∀ attributes ∈ startTags d root, (attributes.map Prod.fst).Nodup) ↔
        ∀ n ∈ d.preorder root, ¬ d.StyledTwice n) ∧
      ∀ n, d.StyledTwice n → ∃ s ∈ flatAll spec.body, s.tag ≠ .text ∧
        s.attributes.get? "style" ≠ none ∧ (s.style.isDefault = false ∨
          s.attributes.get? "id" = some spec.options.balloonId) := by
  intro d
  have hwf : WellFormed d :=
    (Page.after_leads es (PageSpec.settled_of_build h)).settled.hosts.framed.wellFormed
  refine ⟨?_, startTags_read hwf, nodup_startTags hwf root, ?_⟩
  · rw [render, String.toList_ofList, chars_eq_flatMap hwf]
  · intro n hn
    exact Page.described_of_styledTwice h es hn

/-- In the markup of a page without attributes `style` no start tag names an attribute twice, also
after its balloon was shown. -/
theorem startTags_balloonPage : ∃ p, PageSpec.balloonPage.build = .ok p ∧
    ∀ attributes ∈ startTags (p.after Page.balloonEvents).document root,
      (attributes.map Prod.fst).Nodup := by
  have hbuild : (PageSpec.balloonPage.build.toOption.map fun p => p.title) = some none := by
    decide +kernel
  obtain ⟨p, hp, -⟩ := PageSpec.exists_of_build hbuild
  obtain ⟨-, -, hnodup, hdescribed⟩ := startTags_after hp Page.balloonEvents
  refine ⟨p, hp, hnodup.mpr ?_⟩
  intro n _ htwice
  obtain ⟨s, hs, -, hstyle, -⟩ := hdescribed n htwice
  have hplain : ∀ s ∈ flatAll PageSpec.balloonPage.body, s.attributes.get? "style" = none := by
    decide
  exact hstyle (hplain s hs)

end Markup

/-- A page with an element that becomes its balloon and has an attribute `style`. -/
def PageSpec.paintedBalloon : PageSpec where
  body := [
    { tag := .span, attributes := .ofList [("id", "balloon_help"), ("style", "color: red")] },
    { tag := .div, on := .ofList [(.click, .hideHelp)] }]

namespace Markup

/-- Once that balloon was hidden its start tag names `style` twice. -/
theorem doubled_paintedBalloon : ∃ p, PageSpec.paintedBalloon.build = .ok p ∧
    ¬ ∀ attributes ∈ startTags (p.after [⟨3, .click, fun _ => true⟩]).document root,
      (attributes.map Prod.fst).Nodup := by
  have htags : (PageSpec.paintedBalloon.build.toOption.map fun p : Page =>
      decide (∀ attributes ∈ startTags (p.after [⟨3, .click, fun _ => true⟩]).document root,
        (attributes.map Prod.fst).Nodup)) = some false := by
    decide +kernel
  obtain ⟨p, hp, hfalse⟩ := PageSpec.exists_of_build htags
  exact ⟨p, hp, of_decide_eq_false hfalse⟩

end Markup

end FormPage
