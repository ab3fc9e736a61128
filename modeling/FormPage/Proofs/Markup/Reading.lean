import FormPage.Proofs.Document.Reachable
import FormPage.Proofs.Markup.Reader

/-!
Reading markup. The reader recovers the outline of a tree from its markup: kinds, nesting and order,
the attributes of every element with their exact values, and every run of text. Main statement: this
holds for every node of every document below which all names of attributes are such that markup can
hold them, so that two nodes with the same markup have the same outline.
-/

namespace FormPage.Markup

open Document

variable {d : Document} {n : NodeId} {cs rest : List Char} {limit : Nat}

/-! ### Content -/

/-- What can follow the content of an element. -/
def EndsContent (rest : List Char) : Prop := rest = [] ∨ ∃ r, rest = '<' :: '/' :: r

theorem readContent_end (hrest : EndsContent rest) (hlimit : 0 < limit) :
    readContent limit rest = some ([], rest) := by
  obtain ⟨limit, rfl⟩ : ∃ k, limit = k + 1 := ⟨limit - 1, by omega⟩
  rcases hrest with rfl | ⟨r, rfl⟩ <;> simp [readContent]

/-- A run of text is read up to the next tag. -/
theorem readContent_text {run : List Char} (hrun : run ≠ []) (hrest : ∀ c ∈ rest.head?, c = '<')
    (limit : Nat) : readContent (limit + 1) (escapeText run ++ rest) =
      (readContent limit rest).map fun r => (.text run :: r.1, r.2) := by
  have hchars : ∀ c ∈ escapeText run, (c ≠ '<' : Bool) = true := by
    intro c hc
    simpa using (mem_escapeText hc).1
  have hstop : ∀ c ∈ rest.head?, (c ≠ '<' : Bool) = false := by
    intro c hc
    simpa using hrest c hc
  obtain ⟨c, cs, hcs⟩ := List.exists_cons_of_ne_nil (escapeText_ne_nil hrun)
  have hc : c ≠ '<' := by
    simpa using hchars c (by rw [hcs]; exact List.mem_cons_self)
  have hstep : readContent (limit + 1) (escapeText run ++ rest) =
      (readContent limit ((escapeText run ++ rest).dropWhile (· ≠ '<'))).map fun r =>
        (.text (unescape ((escapeText run ++ rest).takeWhile (· ≠ '<'))) :: r.1, r.2) := by
    rw [hcs, List.cons_append, readContent.eq_5 _ _ (by simp) (by simp [hc]) (by simp [hc])]
    generalize readContent limit _ = r
    cases r <;> rfl
  rw [hstep, dropWhile_run hchars hstop, takeWhile_run hchars hstop, unescape_escapeText]

/-- What is read behind a text, where a tag or the end stands behind it. -/
theorem readContent_prepend {run : List Char} {shown : List Item}
    (hhead : ∀ c ∈ cs.head?, c = '<') (hshown : ∀ run', .text run' ∉ shown.head?)
    (hread : ∀ limit, cs.length < limit → readContent limit cs = some (shown, rest))
    (hlimit : (escapeText run ++ cs).length < limit) :
    readContent limit (escapeText run ++ cs) = some (Item.prepend run shown, rest) := by
  rw [List.length_append] at hlimit
  by_cases hrun : run = []
  · subst hrun
    rw [Item.prepend_nil_run]
    exact hread limit (by omega)
  · have hpos := List.length_pos_iff.mpr (escapeText_ne_nil hrun)
    obtain ⟨limit, rfl⟩ : ∃ k, limit = k + 1 := ⟨limit - 1, by omega⟩
    rw [readContent_text hrun hhead, hread limit (by omega)]
    rcases shown with _ | ⟨text | element, shown⟩
    · simp [Item.prepend, hrun]
    · exact absurd rfl (hshown text)
    · simp [Item.prepend, hrun]

/-- Content is read back: behind a text, the markup of a list of nodes shows the text in front of
what the nodes show. -/
def ReadsBack (d : Document) (ns : List NodeId) : Prop :=
  ∀ (run rest : List Char) (limit : Nat), EndsContent rest →
    (escapeText run ++ ((ns.map (chars d)).flatten ++ rest)).length < limit →
    readContent limit (escapeText run ++ ((ns.map (chars d)).flatten ++ rest)) =
      some (Item.prepend run (Item.join (ns.map (items d)).flatten), rest)

theorem readsBack_nil (d : Document) : ReadsBack d [] := by
  intro run rest limit hrest hlimit
  have hhead : ∀ c ∈ rest.head?, c = '<' := by rcases hrest with rfl | ⟨r, rfl⟩ <;> simp
  exact readContent_prepend hhead (by simp [Item.join])
    (fun limit hlimit => readContent_end hrest (by omega)) hlimit

theorem readsBack_cons_text (h : WellFormed d) {ns : List NodeId} {x : Node}
    (hx : d.node? n = some x) (htext : x.tag = .text) (hns : ReadsBack d ns) :
    ReadsBack d (n :: ns) := by
  have hchars : chars d n = escapeText x.text.toList := by
    rw [chars_of_node h hx, element, if_pos htext]
  have hitems : items d n = [.text x.text.toList] := by
    rw [items_of_node h hx, itemsOf, if_pos htext]
  intro run rest limit hrest hlimit
  have hjoin : escapeText run ++ (((n :: ns).map (chars d)).flatten ++ rest) =
      escapeText (run ++ x.text.toList) ++ ((ns.map (chars d)).flatten ++ rest) := by
    simp [hchars, escapeText]
  rw [hjoin] at hlimit ⊢
  rw [hns _ rest limit hrest hlimit, List.map_cons, List.flatten_cons, hitems,
    List.singleton_append, Item.join_text_append, Item.prepend_prepend]

/-- What an element shows. -/
theorem readContent_element (h : WellFormed d) {x : Node} (hx : d.node? n = some x)
    (htext : x.tag ≠ .text) (hlegible : Legible x) (hcontent : ReadsBack d (d.children n))
    (hlimit : (chars d n ++ rest).length < limit + 1) :
    readContent (limit + 1) (chars d n ++ rest) = (readContent limit rest).map fun r =>
      (.element x.tag (shownAttributes x)
        (Item.join ((d.children n).map (items d)).flatten) :: r.1, r.2) := by
  rw [chars_of_node h hx, element, if_neg htext] at hlimit ⊢
  by_cases hvoid : x.tag.isVoid
  · have hchildren := h.void_empty n x.tag (by rw [tag?, hx]; rfl) hvoid
    have hsplit : startTag x ++ [' ', '/', '>'] ++ rest =
        startTag x ++ ' ' :: '/' :: '>' :: rest := by simp
    simp only [if_pos hvoid, hchildren]
    rw [← startTag, hsplit, readContent_void hlegible]
    rfl
  · have hsplit : startTag x ++ '>' :: ((d.children n).map (chars d)).flatten ++
        '<' :: '/' :: x.tag.markupName.toList ++ ['>'] ++ rest =
        startTag x ++ '>' ::
          (((d.children n).map (chars d)).flatten ++ (endTag x.tag ++ rest)) := by
      simp [endTag]
    simp only [if_neg hvoid] at hlimit ⊢
    rw [← startTag, hsplit] at hlimit ⊢
    have hread := hcontent [] (endTag x.tag ++ rest) limit (.inr ⟨_, rfl⟩)
      (by simp [escapeText] at hlimit ⊢; omega)
    exact readContent_open hlegible (by simpa [escapeText] using hread)

theorem readsBack_cons_element (h : WellFormed d) {ns : List NodeId} {x : Node}
    (hx : d.node? n = some x) (htext : x.tag ≠ .text) (hlegible : Legible x)
    (hcontent : ReadsBack d (d.children n)) (hns : ReadsBack d ns) : ReadsBack d (n :: ns) := by
  intro run rest limit hrest hlimit
  have hitems : items d n = [.element x.tag (shownAttributes x)
      (Item.join ((d.children n).map (items d)).flatten)] := by
    rw [items_of_node h hx, itemsOf, if_neg htext]
  have hstart : ∃ tail, chars d n = '<' :: tail := by
    rw [chars_of_node h hx, element, if_neg htext]
    split <;> exact ⟨_, rfl⟩
  rw [List.map_cons, List.flatten_cons, List.append_assoc] at hlimit ⊢
  rw [List.map_cons, List.flatten_cons, hitems, List.singleton_append]
  refine readContent_prepend ?_ (by simp [Item.join]) ?_ hlimit
  · obtain ⟨tail, htail⟩ := hstart
    simp [htail]
  · intro limit hlimit
    obtain ⟨limit, rfl⟩ : ∃ k, limit = k + 1 := ⟨limit - 1, by omega⟩
    have hnext := hns [] rest limit hrest (by
      obtain ⟨tail, htail⟩ := hstart
      simp [escapeText, htail] at hlimit ⊢
      omega)
    have hnext' : readContent limit ((ns.map (chars d)).flatten ++ rest) =
        some (Item.join (ns.map (items d)).flatten, rest) := by
      simpa [escapeText] using hnext
    rw [readContent_element h hx htext hlegible hcontent hlimit, hnext']
    rfl

/-! ### Whole trees -/

/-- All names of attributes at a node and below it are such that markup can hold them. -/
def LegibleBelow (d : Document) (n : NodeId) : Prop :=
  ∀ m, d.AtOrAbove n m → ∀ x, d.node? m = some x → Legible x

theorem legibleBelow_of_all (h : ∀ x ∈ d.nodes.toList, Legible x) (n : NodeId) :
    LegibleBelow d n := by
  intro m _ x hx
  exact h x (Array.mem_toList_iff.mpr (Array.mem_of_getElem? hx))

theorem LegibleBelow.child (h : WellFormed d) (hn : LegibleBelow d n) {c : NodeId}
    (hc : c ∈ d.children n) : LegibleBelow d c := by
  intro m hm x hx
  exact hn m (hm.tail ((h.mem_children n c).mp hc)) x hx

/-- A list of nodes is read back if all that lies below them is. -/
theorem readsBack_of_below (h : WellFormed d) {ns : List NodeId}
    (hlegible : ∀ c ∈ ns, LegibleBelow d c) (hbelow : ∀ c ∈ ns, ReadsBack d (d.children c)) :
    ReadsBack d ns := by
  induction ns with
  | nil => exact readsBack_nil d
  | cons c ns ih =>
    have hns := ih (fun b hb => hlegible b (List.mem_cons_of_mem _ hb))
      fun b hb => hbelow b (List.mem_cons_of_mem _ hb)
    cases hx : d.node? c with
    | none =>
      have hge := node?_eq_none_iff.mp hx
      simpa [ReadsBack, chars_of_size_le hge, items_of_size_le hge] using hns
    | some x =>
      by_cases htext : x.tag = .text
      · exact readsBack_cons_text h hx htext hns
      · exact readsBack_cons_element h hx htext (hlegible c List.mem_cons_self c .refl x hx)
          (hbelow c List.mem_cons_self) hns

theorem readsBack_children (h : WellFormed d) (n : NodeId) (hn : LegibleBelow d n) :
    ReadsBack d (d.children n) := by
  induction n using h.below_induction with
  | hP n ih =>
    exact readsBack_of_below h (fun c hc => hn.child h hc) fun c hc => ih c hc (hn.child h hc)

theorem read_eq_outline (h : WellFormed d) (hn : LegibleBelow d n) :
    read (render d n) = some (outline d n) := by
  have hback : ReadsBack d [n] := by
    refine readsBack_of_below h ?_ ?_
    · intro c hc
      exact List.mem_singleton.mp hc ▸ hn
    · intro c hc
      exact List.mem_singleton.mp hc ▸ readsBack_children h n hn
  have hcontent : readContent ((chars d n).length + 1) (chars d n) = some (outline d n, []) := by
    simpa [escapeText, outline] using hback [] [] ((chars d n).length + 1) (.inl rfl)
      (by simp [escapeText])
  rw [read, render, String.toList_ofList, hcontent]

/-- For every document that can be reached and every node below which all names of attributes are
such that markup can hold them, the reader recovers the outline from the markup, and in the outline
all runs of text are joined and not empty. Hence two such nodes with the same markup, of whatever
documents, have the same outline. -/
theorem read_render (h : Reachable d) (hn : LegibleBelow d n) :
    read (render d n) = some (outline d n) ∧ Item.Joined (outline d n) ∧
      ∀ {d' : Document} {n' : NodeId}, Reachable d' → LegibleBelow d' n' →
        render d n = render d' n' → outline d n = outline d' n' := by
  have hread := read_eq_outline h.wellFormed hn
  refine ⟨hread, joined_outline h.wellFormed n, ?_⟩
  intro d' n' h' hn' hrender
  have hread' := read_eq_outline h'.wellFormed hn'
  rw [← hrender, hread] at hread'
  exact Option.some.inj hread'

/-- An element with an attribute and a style, and in it a text in the given pieces. -/
def textOperations (pieces : List String) : List Operation :=
  [.call (.createElement .span), .call (.appendChild body 2),
    .call (.setAttribute 2 "title" "a \"<\" b"),
    .call (.updateStyle 2 fun s => { s with display := .block })] ++
  pieces.zipIdx.flatMap fun e => [.call (.createText e.1), .call (.appendChild 2 (e.2 + 3))]

/-- Pieces of a text and the whole text have the same markup, which shows the whole text. -/
theorem read_render_pieces :
    read (render (after (textOperations ["1 <", "", " 2 &amp;"])) root) =
        some (outline (after (textOperations ["1 < 2 &amp;"])) root) ∧
      Item.Joined (outline (after (textOperations ["1 < 2 &amp;"])) root) ∧
      outline (after (textOperations ["1 <", "", " 2 &amp;"])) root =
        outline (after (textOperations ["1 < 2 &amp;"])) root := by
  have hlegible : ∀ x ∈ (after (textOperations ["1 <", "", " 2 &amp;"])).nodes.toList,
      Legible x := by decide +kernel
  have hlegible' : ∀ x ∈ (after (textOperations ["1 < 2 &amp;"])).nodes.toList,
      Legible x := by decide +kernel
  have hrender : render (after (textOperations ["1 <", "", " 2 &amp;"])) root =
      render (after (textOperations ["1 < 2 &amp;"])) root := by decide +kernel
  obtain ⟨hread, -, hsame⟩ := read_render ⟨_, rfl⟩ (legibleBelow_of_all hlegible root)
  obtain ⟨-, hjoined, -⟩ := read_render ⟨_, rfl⟩ (legibleBelow_of_all hlegible' root)
  have houtline := hsame ⟨_, rfl⟩ (legibleBelow_of_all hlegible' root) hrender
  exact ⟨houtline ▸ hread, hjoined, houtline⟩

end FormPage.Markup
