import FormPage.Proofs.Markup.Written
import FormPage.Proofs.Page.Built
import Mathlib.Algebra.Ring.Nat

/-!
Where markup begins a tag. Neither the texts nor the values of a page begin one, whatever they are:
in the markup of a node the character that begins a tag stands once for each tag that is written for
the nodes below, and once more wherever the name of an attribute holds it. Main statement: this
count for a loaded page, and that the tags alone make it up exactly if no attached node has such a
name.
-/

namespace FormPage

open Document
open Markup (render chars)

/-- How many tags markup writes for a node: none for a text, one for an input, which is closed
within its start tag, and two for every other element. -/
def Tag.written : Tag → Nat
  | text => 0
  | input => 1
  | _ => 2

namespace Document

/-- The names of the attributes of a node. -/
def attributeNames (d : Document) (n : NodeId) : List String :=
  match d.node? n with
  | none => []
  | some x => x.attributes.entries.map Prod.fst

/-- The tags that are written for a node. -/
def tagsWritten (d : Document) (n : NodeId) : Nat := ((d.tag? n).map Tag.written).getD 0

/-- Whether a node is an element that is written with an end tag. -/
def hasEndTag (d : Document) (n : NodeId) : Bool := (d.tag? n).any fun t => !t.isVoid

/-- The characters of all names of attributes in some nodes. -/
def nameChars (d : Document) (ns : List NodeId) : List Char :=
  (ns.flatMap d.attributeNames).flatMap String.toList

end Document

variable {d : Document} {n : NodeId} {x : Node} {cs : List Char}

namespace Markup

theorem count_of_not_mem {l : List Char} (h : ∀ c ∈ l, c ≠ '<') : l.count '<' = 0 := by
  rw [List.count_eq_zero]
  intro hmem
  exact h '<' hmem rfl

theorem count_nameAndValue {name value : List Char} (h : ∀ c ∈ value, c ≠ '<') :
    (nameAndValue name value).count '<' = name.count '<' := by
  have hvalue := count_of_not_mem h
  simp [nameAndValue, hvalue]

/-- Of an attribute only its name may hold the character. -/
theorem count_written (e : String × String) : (written e).count '<' = e.1.toList.count '<' :=
  count_nameAndValue fun _ hc => (mem_escapeValue hc).1

theorem count_attributes (x : Node) :
    (attributes x).count '<' = ((x.attributes.entries.map Prod.fst).flatMap String.toList).count '<'
    := by
  have hstyle : ((if x.style.isDefault then [] else
      [("style", String.ofList (inlineStyle x.style))]).flatMap written).count '<' = 0 := by
    split
    · rfl
    · have hname : "style".toList.count '<' = 0 := by decide
      rw [List.flatMap_singleton, count_written, hname]
  rw [attributes_eq, shownAttributes, List.flatMap_append, List.count_append, hstyle, Nat.add_zero,
    List.count_flatMap, List.count_flatMap, List.map_map]
  congr 1
  refine List.map_congr_left ?_
  intro e _
  exact count_written e

theorem count_markupName (t : Tag) : t.markupName.toList.count '<' = 0 := by cases t <;> decide

/-- A node begins the tags that are written for it; its content and the names of its attributes may
begin more. -/
theorem count_element (x : Node) (content : List (List Char))
    (htext : x.tag = .text → x.attributes = ∅) (hvoid : x.tag.isVoid = true → content = []) :
    (element x content).count '<' = x.tag.written +
      ((x.attributes.entries.map Prod.fst).flatMap String.toList).count '<' +
      content.flatten.count '<' := by
  by_cases ht : x.tag = .text
  · have hbare := htext ht
    have hnone := hvoid (by rw [ht]; rfl)
    have hescaped := count_of_not_mem (l := escapeText x.text.toList) fun _ hc =>
      (mem_escapeText hc).1
    rw [element, if_pos ht, hescaped, hbare, hnone, ht]
    rfl
  rw [element, if_neg ht]
  by_cases hv : x.tag.isVoid = true
  · have hinput : x.tag = .input := by
      cases htag : x.tag <;> simp_all [Tag.isVoid]
    simp [hvoid hv, hinput, Tag.isVoid, Tag.written, count_attributes, count_markupName]
    omega
  · have htwo : x.tag.written = 2 := by
      cases htag : x.tag <;> simp_all [Tag.isVoid, Tag.written]
    simp [hv, htwo, count_attributes, count_markupName]
    omega

theorem tagsWritten_of_node (hx : d.node? n = some x) : d.tagsWritten n = x.tag.written := by
  rw [tagsWritten, tag?, hx]
  rfl

theorem attributeNames_of_node (hx : d.node? n = some x) :
    d.attributeNames n = x.attributes.entries.map Prod.fst := by
  rw [attributeNames, hx]

theorem nameChars_cons (d : Document) (n : NodeId) (ns : List NodeId) :
    d.nameChars (n :: ns) = (d.attributeNames n).flatMap String.toList ++ d.nameChars ns := by
  rw [nameChars, List.flatMap_cons, List.flatMap_append]
  rfl

theorem nameChars_append (d : Document) (ns ms : List NodeId) :
    d.nameChars (ns ++ ms) = d.nameChars ns ++ d.nameChars ms := by
  rw [nameChars, List.flatMap_append, List.flatMap_append]
  rfl

/-- A character of the markup of siblings counts as often as in each of them. -/
theorem count_siblings {ns : List NodeId}
    (h : ∀ c ∈ ns, (chars d c).count '<' =
      ((d.preorder c).map d.tagsWritten).sum + (d.nameChars (d.preorder c)).count '<') :
    ((ns.map (chars d)).flatten).count '<' =
      ((ns.flatMap d.preorder).map d.tagsWritten).sum +
        (d.nameChars (ns.flatMap d.preorder)).count '<' := by
  induction ns with
  | nil => rfl
  | cons c ns ih =>
    have hc := h c List.mem_cons_self
    have hrest := ih fun m hm => h m (List.mem_cons_of_mem _ hm)
    rw [List.map_cons, List.flatten_cons, List.count_append, hc, hrest, List.flatMap_cons,
      List.map_append, List.sum_append, nameChars_append, List.count_append]
    omega

/-- The markup of a node begins the tags of all nodes below, and besides only what the names of
their attributes begin. -/
theorem count_chars (h : WellFormed d) (n : NodeId) :
    (chars d n).count '<' =
      ((d.preorder n).map d.tagsWritten).sum + (d.nameChars (d.preorder n)).count '<' := by
  induction n using h.below_induction with
  | hP n ih =>
    by_cases hn : n < d.size
    · obtain ⟨x, hx⟩ := exists_node hn
      have htag : d.tag? n = some x.tag := by rw [tag?, hx]; rfl
      have htext : x.tag = .text → x.attributes = ∅ := h.text_bare n x.face (face?_of_node hx)
      have hvoid : x.tag.isVoid = true → (d.children n).map (chars d) = [] := by
        intro hv
        rw [h.void_empty n x.tag htag hv, List.map_nil]
      rw [chars_of_node h hx, count_element x _ htext hvoid, count_siblings ih,
        h.preorder_of_lt hn, List.map_cons, List.sum_cons, nameChars_cons, List.count_append,
        tagsWritten_of_node hx, attributeNames_of_node hx]
      omega
    · have hge := Nat.le_of_not_lt hn
      rw [chars_of_size_le hge, WellFormed.preorder_of_size_le hge]
      rfl

/-! ### Tags of elements -/

theorem sum_tagsWritten (d : Document) (ns : List NodeId) : (ns.map d.tagsWritten).sum =
    2 * ns.countP d.hasEndTag + ns.countP fun n => d.tag? n = some .input := by
  induction ns with
  | nil => rfl
  | cons n ns ih =>
    rw [List.map_cons, List.sum_cons, ih, List.countP_cons, List.countP_cons, tagsWritten,
      hasEndTag]
    cases d.tag? n with
    | none => simp
    | some t => cases t <;> simp [Tag.written, Tag.isVoid] <;> omega

theorem count_nameChars_eq_zero {ns : List NodeId} : (d.nameChars ns).count '<' = 0 ↔
    ∀ n ∈ ns, ∀ name ∈ d.attributeNames n, '<' ∉ name.toList := by
  rw [List.count_eq_zero, nameChars]
  simp only [List.mem_flatMap, not_exists, not_and]
  constructor
  · intro h n hn name hname
    exact h name ⟨n, hn, hname⟩
  · rintro h name ⟨n, hn, hname⟩
    exact h n hn name hname

/-- In the markup of a loaded page the character that begins a tag stands twice for every attached
element that has an end tag, once for every attached input, and besides only in the names of
attributes; hence it begins nothing but tags exactly if no such name holds it. -/
theorem count_render {spec : PageSpec} {p : Page} (h : spec.build = .ok p) :
    let attached := p.document.preorder root
    let tags := 2 * attached.countP p.document.hasEndTag +
      attached.countP fun n => p.document.tag? n = some .input
    (render p.document root).toList.count '<' =
        tags + (p.document.nameChars attached).count '<' ∧
      ((render p.document root).toList.count '<' = tags ↔
        ∀ n ∈ attached, ∀ name ∈ p.document.attributeNames n, '<' ∉ name.toList) := by
  intro attached tags
  have hwf := (PageSpec.settled_of_build h).hosts.framed.wellFormed
  have hcount : (render p.document root).toList.count '<' =
      tags + (p.document.nameChars attached).count '<' := by
    rw [render, String.toList_ofList, count_chars hwf root, sum_tagsWritten]
  refine ⟨hcount, ?_⟩
  rw [hcount, ← count_nameChars_eq_zero]
  omega

end Markup

/-- A page with the character that begins a tag in a text, in a value and in the name of an
attribute. -/
def PageSpec.sharpPage : PageSpec where
  body := [
    { tag := .label, text := some "a < b",
      attributes := (∅ : OrderedMap String String).insert "x<b" "" },
    { tag := .input, attributes := (∅ : OrderedMap String String).insert "value" "</body>" }]

namespace Markup

/-- The text and the value add nothing to the tags of the page, the name of the attribute does. -/
theorem count_sharpPage : ∃ p, PageSpec.sharpPage.build = .ok p ∧
    (render p.document root).toList.count '<' =
      2 * (p.document.preorder root).countP p.document.hasEndTag +
        (p.document.preorder root).countP (fun n => p.document.tag? n = some .input) +
        (p.document.nameChars (p.document.preorder root)).count '<' := by
  have hbuild : (PageSpec.sharpPage.build.toOption.map fun p => p.title) = some none := by
    decide +kernel
  obtain ⟨p, hp, -⟩ := PageSpec.exists_of_build hbuild
  exact ⟨p, hp, (count_render hp).1⟩

/-- The markup of the page holds the character more often than its tags begin with it. -/
theorem injected_sharpPage : ∃ p, PageSpec.sharpPage.build = .ok p ∧
    (render p.document root).toList.count '<' ≠
      2 * (p.document.preorder root).countP p.document.hasEndTag +
        (p.document.preorder root).countP fun n => p.document.tag? n = some .input := by
  have hcounts : (PageSpec.sharpPage.build.toOption.map fun p =>
      ((render p.document root).toList.count '<',
        (p.document.preorder root).countP p.document.hasEndTag,
        (p.document.preorder root).countP fun n => p.document.tag? n = some .input)) =
      some (8, 3, 1) := by
    decide +kernel
  obtain ⟨p, hp, hcounts⟩ := PageSpec.exists_of_build hcounts
  simp only [Prod.mk.injEq] at hcounts
  obtain ⟨hall, hopen, hinput⟩ := hcounts
  refine ⟨p, hp, ?_⟩
  rw [hall, hopen, hinput]
  decide

end Markup

end FormPage
