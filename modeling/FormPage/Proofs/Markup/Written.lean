import FormPage.Markup.Render
import FormPage.Proofs.Document.Tree
import FormPage.Proofs.Text.Decimal
import Mathlib.Data.Bool.AllAny

/-!
What markup is written of. Escaped text and escaped values hold no character that begins a tag or
ends a value, and an inline style holds none that would be escaped. Hence the inline style is one
more attribute behind the others, written like them (`attributes_eq`).
-/

namespace FormPage.Markup

open Document

variable {d : Document} {n : NodeId} {c : Char} {cs : List Char}

theorem chars_of_node (h : WellFormed d) {x : Node} (hx : d.node? n = some x) :
    chars d n = element x ((d.children n).map (chars d)) :=
  h.fold_of_node hx (fun _ node content => element node content) []

theorem chars_of_size_le (hn : d.size ≤ n) : chars d n = [] := by
  rw [chars, fold, foldFrom, node?_eq_none_iff.mpr hn]

/-! ### Escaping -/

/-- A character that stands for itself in a value. -/
def Plain (c : Char) : Prop := c ≠ '&' ∧ c ≠ '<' ∧ c ≠ '>' ∧ c ≠ '"'

instance : DecidablePred Plain := fun _ => inferInstanceAs (Decidable (_ ∧ _))

theorem escapeValue_of_plain (h : ∀ c ∈ cs, Plain c) : escapeValue cs = cs := by
  induction cs with
  | nil => rfl
  | cons c cs ih =>
    obtain ⟨hamp, hlt, hgt, hquote⟩ := h c List.mem_cons_self
    have hrest := ih fun b hb => h b (List.mem_cons_of_mem _ hb)
    rw [escapeValue] at hrest ⊢
    simp [escapeValueChar, escapeTextChar, hamp, hlt, hgt, hquote, hrest]

/-- Characters that were checked one by one are none of the marks. -/
theorem not_mark_of_all (hall : (cs.all fun b => b ≠ '<' && b ≠ '>' && b ≠ '"') = true)
    (h : c ∈ cs) : c ≠ '<' ∧ c ≠ '>' ∧ c ≠ '"' := by
  have hc := List.all_eq_true.mp hall c h
  simp only [Bool.and_eq_true, decide_eq_true_eq] at hc
  exact ⟨hc.1.1, hc.1.2, hc.2⟩

theorem mem_escapeTextChar {b : Char} (h : c ∈ escapeTextChar b) :
    c ≠ '<' ∧ c ≠ '>' ∧ (c = '"' → b = '"') := by
  by_cases hamp : b = '&'
  · subst hamp
    obtain ⟨hlt, hgt, hquote⟩ := not_mark_of_all (by decide) h
    exact ⟨hlt, hgt, fun hc => absurd hc hquote⟩
  by_cases hlt : b = '<'
  · subst hlt
    obtain ⟨hlt, hgt, hquote⟩ := not_mark_of_all (by decide) h
    exact ⟨hlt, hgt, fun hc => absurd hc hquote⟩
  by_cases hgt : b = '>'
  · subst hgt
    obtain ⟨hlt, hgt, hquote⟩ := not_mark_of_all (by decide) h
    exact ⟨hlt, hgt, fun hc => absurd hc hquote⟩
  simp only [escapeTextChar, hamp, hlt, hgt, if_false, List.mem_singleton] at h
  subst h
  exact ⟨hlt, hgt, id⟩

theorem mem_escapeValueChar {b : Char} (h : c ∈ escapeValueChar b) :
    c ≠ '<' ∧ c ≠ '>' ∧ c ≠ '"' := by
  by_cases hquote : b = '"'
  · subst hquote
    exact not_mark_of_all (by decide) h
  rw [escapeValueChar, if_neg hquote] at h
  obtain ⟨hlt, hgt, himp⟩ := mem_escapeTextChar h
  exact ⟨hlt, hgt, fun hc => hquote (himp hc)⟩

/-- Escaped text neither begins nor ends a tag. -/
theorem mem_escapeText (h : c ∈ escapeText cs) : c ≠ '<' ∧ c ≠ '>' := by
  obtain ⟨b, -, hb⟩ := List.mem_flatMap.mp h
  obtain ⟨hlt, hgt, -⟩ := mem_escapeTextChar hb
  exact ⟨hlt, hgt⟩

/-- An escaped value neither begins nor ends a tag, and does not end before it is over. -/
theorem mem_escapeValue (h : c ∈ escapeValue cs) : c ≠ '<' ∧ c ≠ '>' ∧ c ≠ '"' := by
  obtain ⟨b, -, hb⟩ := List.mem_flatMap.mp h
  exact mem_escapeValueChar hb

/-! ### The inline style -/

theorem plain_of_mem_decimal {k : Int} (h : c ∈ Text.decimal k) : Plain c := by
  rcases Text.mem_decimal h with rfl | hdigit
  · decide
  · refine ⟨?_, ?_, ?_, ?_⟩ <;> rintro rfl <;> revert hdigit <;> decide

theorem plain_of_mem_pixels {name : List Char} (hname : ∀ c ∈ name, Plain c) {k : Int}
    (h : c ∈ name ++ Text.decimal k ++ ['p', 'x']) : Plain c := by
  simp only [List.mem_append] at h
  rcases h with (h | h) | h
  · exact hname c h
  · exact plain_of_mem_decimal h
  · exact List.all_iff_forall_prop.mp (by decide) c h

/-- What a property is written of stands for itself. -/
theorem plain_of_mem_properties {s : Style} {p : List Char} (hp : p ∈ properties s) :
    ∀ c ∈ p, Plain c := by
  obtain ⟨display, position, left, top⟩ := s
  simp only [properties, List.mem_append] at hp
  rcases hp with ((hp | hp) | hp) | hp
  · exact List.all_iff_forall_prop.mp (by cases display <;> revert p <;> decide)
  · exact List.all_iff_forall_prop.mp (by cases position <;> revert p <;> decide)
  · cases left with
    | none => cases hp
    | some x =>
      obtain rfl := List.mem_singleton.mp hp
      intro c hc
      exact plain_of_mem_pixels (List.all_iff_forall_prop.mp (by decide)) hc
  · cases top with
    | none => cases hp
    | some x =>
      obtain rfl := List.mem_singleton.mp hp
      intro c hc
      exact plain_of_mem_pixels (List.all_iff_forall_prop.mp (by decide)) hc

theorem mem_intercalate {sep : List Char} : ∀ {ps : List (List Char)},
    c ∈ sep.intercalate ps → c ∈ sep ∨ ∃ p ∈ ps, c ∈ p
  | [], h => by cases h
  | [p], h => by
    rw [List.intercalate_singleton] at h
    exact .inr ⟨p, List.mem_cons_self, h⟩
  | p :: q :: ps, h => by
    rw [List.intercalate_cons_cons, List.mem_append, List.mem_append] at h
    rcases h with (h | h) | h
    · exact .inr ⟨p, List.mem_cons_self, h⟩
    · exact .inl h
    · rcases mem_intercalate h with h | ⟨r, hr, h⟩
      · exact .inl h
      · exact .inr ⟨r, List.mem_cons_of_mem _ hr, h⟩

theorem plain_of_mem_inlineStyle {s : Style} (h : c ∈ inlineStyle s) : Plain c := by
  rcases mem_intercalate h with hsep | ⟨p, hp, hc⟩
  · simp only [List.mem_cons, List.not_mem_nil, or_false] at hsep
    rcases hsep with rfl | rfl <;> decide
  · exact plain_of_mem_properties hp c hc

/-- An inline style is written as nothing exactly if nothing was set. -/
theorem inlineStyle_isEmpty (s : Style) : (inlineStyle s).isEmpty = s.isDefault := by
  obtain ⟨display, position, left, top⟩ := s
  cases display <;> cases position <;> cases left <;> cases top <;>
    simp [inlineStyle, properties, Style.isDefault]

/-! ### Attributes -/

/-- The attributes of a node as markup shows them: its own, in their order, and behind them its
inline style where it is not the default one. -/
def shownAttributes (x : Node) : List (String × String) :=
  x.attributes.entries ++
    if x.style.isDefault then [] else [("style", String.ofList (inlineStyle x.style))]

/-- An attribute as it is written. -/
def written (e : String × String) : List Char :=
  nameAndValue e.1.toList (escapeValue e.2.toList)

theorem attributes_eq (x : Node) : attributes x = (shownAttributes x).flatMap written := by
  rw [attributes, shownAttributes, inlineStyle_isEmpty, List.flatMap_append]
  split
  · rfl
  · have hstyle : escapeValue (inlineStyle x.style) = inlineStyle x.style :=
      escapeValue_of_plain fun c hc => plain_of_mem_inlineStyle hc
    simp only [written, List.flatMap_singleton, String.toList_ofList, hstyle]
    rfl

end FormPage.Markup
