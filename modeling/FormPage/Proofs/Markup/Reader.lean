import FormPage.Proofs.Markup.Outline
import FormPage.Text.Blank

/-!
A reader of markup. It knows nothing of trees of nodes: it replaces escapes, cuts start tags into a
kind and attributes, and collects items up to an end tag. Escaped text and values are recovered, and
so are the kind and the attributes of an element from its start tag.
-/

namespace FormPage

/-- The kind of element that has a name in markup. -/
def Tag.ofMarkupName? (cs : List Char) : Option Tag :=
  Tag.all.find? fun t => t.markupName.toList = cs

namespace Markup

open Document

/-! ### The reader -/

/-- Replaces the escapes of a text or a value by what they stand for. -/
def unescape : List Char → List Char
  | '&' :: 'a' :: 'm' :: 'p' :: ';' :: rest => '&' :: unescape rest
  | '&' :: 'l' :: 't' :: ';' :: rest => '<' :: unescape rest
  | '&' :: 'g' :: 't' :: ';' :: rest => '>' :: unescape rest
  | '&' :: 'q' :: 'u' :: 'o' :: 't' :: ';' :: rest => '"' :: unescape rest
  | c :: rest => c :: unescape rest
  | [] => []

/-- Reads attributes, each behind a blank, up to the end of a start tag. -/
def readAttributes : Nat → List Char → Option (List (String × String) × List Char)
  | 0, _ => none
  | _ + 1, ' ' :: '/' :: rest => some ([], ' ' :: '/' :: rest)
  | limit + 1, ' ' :: cs =>
    match cs.dropWhile (· ≠ '=') with
    | '=' :: '"' :: value =>
      match value.dropWhile (· ≠ '"') with
      | '"' :: rest => do
        let (attributes, rest) ← readAttributes limit rest
        return ((String.ofList (cs.takeWhile (· ≠ '=')),
          String.ofList (unescape (value.takeWhile (· ≠ '"')))) :: attributes, rest)
      | _ => none
    | _ => none
  | _ + 1, rest => some ([], rest)

/-- Whether a character belongs to the name of a tag. -/
def isNameChar (c : Char) : Bool := c ≠ ' ' && c ≠ '>'

/-- Reads an end tag of a kind. -/
def readEnd (tag : Tag) : List Char → Option (List Char)
  | '<' :: '/' :: cs =>
    match cs.dropWhile isNameChar with
    | '>' :: rest => if cs.takeWhile isNameChar = tag.markupName.toList then some rest else none
    | _ => none
  | _ => none

/-- Reads a start tag behind its first character, up to its end. -/
def readStart (cs : List Char) : Option ((Tag × List (String × String)) × List Char) := do
  let tag ← Tag.ofMarkupName? (cs.takeWhile isNameChar)
  let (attributes, rest) ← readAttributes (cs.length + 1) (cs.dropWhile isNameChar)
  return ((tag, attributes), rest)

/-- Reads items up to an end tag, or to the end of the markup. -/
def readContent : Nat → List Char → Option (List Item × List Char)
  | 0, _ => none
  | _ + 1, [] => some ([], [])
  | _ + 1, '<' :: '/' :: rest => some ([], '<' :: '/' :: rest)
  | limit + 1, '<' :: cs =>
    match readStart cs with
    | some ((tag, attributes), ' ' :: '/' :: '>' :: rest) => do
      let (items, rest) ← readContent limit rest
      return (.element tag attributes [] :: items, rest)
    | some ((tag, attributes), '>' :: rest) => do
      let (content, rest) ← readContent limit rest
      let rest ← readEnd tag rest
      let (items, rest) ← readContent limit rest
      return (.element tag attributes content :: items, rest)
    | _ => none
  | limit + 1, cs => do
    let (items, rest) ← readContent limit (cs.dropWhile (· ≠ '<'))
    return (.text (unescape (cs.takeWhile (· ≠ '<'))) :: items, rest)

/-- The outline that markup shows. -/
def read (markup : String) : Option (List Item) :=
  match readContent (markup.toList.length + 1) markup.toList with
  | some (items, []) => some items
  | _ => none

variable {c : Char} {cs rest : List Char} {limit : Nat}

/-! ### Escapes -/

theorem unescape_cons (hc : c ≠ '&') (cs : List Char) : unescape (c :: cs) = c :: unescape cs :=
  unescape.eq_5 c cs (by simp [hc]) (by simp [hc]) (by simp [hc]) (by simp [hc])

theorem unescape_escapeTextChar (c : Char) (cs : List Char) :
    unescape (escapeTextChar c ++ cs) = c :: unescape cs := by
  by_cases hamp : c = '&'
  · subst hamp; simp [escapeTextChar, unescape]
  by_cases hlt : c = '<'
  · subst hlt; simp [escapeTextChar, unescape]
  by_cases hgt : c = '>'
  · subst hgt; simp [escapeTextChar, unescape]
  simp [escapeTextChar, hamp, hlt, hgt, unescape_cons]

/-- A text is recovered from its escaped form. -/
theorem unescape_escapeText (cs : List Char) : unescape (escapeText cs) = cs := by
  induction cs with
  | nil => rfl
  | cons c cs ih =>
    rw [escapeText] at ih ⊢
    rw [List.flatMap_cons, unescape_escapeTextChar, ih]

theorem escapeText_ne_nil (h : cs ≠ []) : escapeText cs ≠ [] := by
  intro hnil
  have hrecovered := unescape_escapeText cs
  rw [hnil] at hrecovered
  exact h hrecovered.symm

/-- A value is recovered from its escaped form. -/
theorem unescape_escapeValue (cs : List Char) : unescape (escapeValue cs) = cs := by
  induction cs with
  | nil => rfl
  | cons c cs ih =>
    rw [escapeValue] at ih ⊢
    rw [List.flatMap_cons]
    by_cases hquote : c = '"'
    · subst hquote; simp [escapeValueChar, unescape, ih]
    · rw [escapeValueChar, if_neg hquote, unescape_escapeTextChar, ih]

/-! ### Runs of characters -/

section Runs

variable {p : Char → Bool} {run : List Char}

theorem takeWhile_run (hrun : ∀ c ∈ run, p c = true) (hrest : ∀ c ∈ rest.head?, p c = false) :
    (run ++ rest).takeWhile p = run := by
  rw [List.takeWhile_append_of_pos hrun]
  cases rest with
  | nil => simp
  | cons c rest => simp [hrest c rfl]

theorem dropWhile_run (hrun : ∀ c ∈ run, p c = true) (hrest : ∀ c ∈ rest.head?, p c = false) :
    (run ++ rest).dropWhile p = rest := by
  rw [List.dropWhile_append_of_pos hrun]
  cases rest with
  | nil => simp
  | cons c rest => simp [hrest c rfl]

end Runs

/-! ### Start tags and end tags -/

/-- A name that an attribute can have in markup: not empty, without blanks, and without the
characters that end a name, a value, a tag or an escape. -/
def IsName (name : String) : Prop :=
  name ≠ "" ∧ ∀ c ∈ name.toList,
    Text.isBlank c = false ∧ c ∉ ['"', '\x27', '<', '>', '/', '=', '&']

instance : DecidablePred IsName := fun _ =>
  @instDecidableAnd _ _ _ (List.decidableBAll _ _)

/-- A name begins with no slash and holds no sign of equality. -/
theorem IsName.shape {name : String} (h : IsName name) :
    (∃ c cs, name.toList = c :: cs ∧ c ≠ '/') ∧ ∀ c ∈ name.toList, c ≠ '=' := by
  obtain ⟨hne, hchars⟩ := h
  constructor
  · cases hname : name.toList with
    | nil => exact absurd (String.toList_eq_nil_iff.mp hname) hne
    | cons c cs =>
      refine ⟨c, cs, rfl, ?_⟩
      rintro rfl
      have hslash := (hchars '/' (by rw [hname]; exact List.mem_cons_self)).2
      simp at hslash
  · rintro c hc rfl
    have heq := (hchars '=' hc).2
    simp at heq

theorem readAttributes_written {e : String × String} (h : IsName e.1) (limit : Nat)
    (rest : List Char) : readAttributes (limit + 1) (written e ++ rest) =
      (readAttributes limit rest).map fun r => (e :: r.1, r.2) := by
  obtain ⟨⟨c, cs, hname, hslash⟩, hequals⟩ := h.shape
  have hvalue : ∀ b ∈ escapeValue e.2.toList, (b ≠ '"' : Bool) = true := by
    intro b hb
    simpa using (mem_escapeValue hb).2.2
  have hnameChars : ∀ b ∈ e.1.toList, (b ≠ '=' : Bool) = true := by
    intro b hb
    simpa using hequals b hb
  have hsplit : written e ++ rest =
      ' ' :: (e.1.toList ++ '=' :: '"' :: (escapeValue e.2.toList ++ '"' :: rest)) := by
    simp [written, nameAndValue]
  have hcut : (e.1.toList ++ '=' :: '"' :: (escapeValue e.2.toList ++ '"' :: rest)) =
      c :: (cs ++ '=' :: '"' :: (escapeValue e.2.toList ++ '"' :: rest)) := by
    rw [hname]; rfl
  rw [hsplit, readAttributes.eq_3 _ _ (by rw [hcut]; simpa using hslash)]
  rw [dropWhile_run hnameChars (by simp), takeWhile_run hnameChars (by simp)]
  simp only [dropWhile_run hvalue (show ∀ c ∈ ('"' :: rest).head?, _ by simp),
    takeWhile_run hvalue (show ∀ c ∈ ('"' :: rest).head?, _ by simp), unescape_escapeValue,
    String.ofList_toList]
  cases readAttributes limit rest <;> rfl

/-- What can follow the attributes of a start tag. -/
def EndsStart (rest : List Char) : Prop := (∃ r, rest = '>' :: r) ∨ ∃ r, rest = ' ' :: '/' :: r

/-- Attributes are recovered from a start tag. -/
theorem readAttributes_append {es : List (String × String)} (h : ∀ e ∈ es, IsName e.1)
    (hrest : EndsStart rest) (hlimit : es.length < limit) :
    readAttributes limit (es.flatMap written ++ rest) = some (es, rest) := by
  induction es generalizing limit with
  | nil =>
    obtain ⟨limit, rfl⟩ : ∃ k, limit = k + 1 := ⟨limit - 1, by simp at hlimit; omega⟩
    rcases hrest with ⟨r, rfl⟩ | ⟨r, rfl⟩ <;> simp [readAttributes]
  | cons e es ih =>
    obtain ⟨limit, rfl⟩ : ∃ k, limit = k + 1 := ⟨limit - 1, by simp at hlimit; omega⟩
    have hes : readAttributes limit (es.flatMap written ++ rest) = some (es, rest) :=
      ih (fun e he => h e (List.mem_cons_of_mem _ he)) (by simp at hlimit; omega)
    rw [List.flatMap_cons, List.append_assoc, readAttributes_written (h e List.mem_cons_self), hes]
    rfl

theorem ofMarkupName?_markupName (t : Tag) : Tag.ofMarkupName? t.markupName.toList = some t := by
  cases t <;> decide

theorem isNameChar_markupName (t : Tag) : ∀ c ∈ t.markupName.toList, isNameChar c = true :=
  List.all_eq_true.mp (by cases t <;> decide)

theorem ne_slash_of_head (t : Tag) (cs : List Char) :
    ∀ r, t.markupName.toList ++ cs ≠ '/' :: r := by
  intro r heq
  have hslash : ∀ c ∈ t.markupName.toList, c ≠ '/' :=
    List.all_iff_forall_prop.mp (by cases t <;> decide)
  cases hname : t.markupName.toList with
  | nil => revert hname; cases t <;> decide
  | cons c name =>
    rw [hname, List.cons_append, List.cons.injEq] at heq
    exact hslash c (by rw [hname]; exact List.mem_cons_self) heq.1

/-- The end tag of a kind. -/
def endTag (t : Tag) : List Char := '<' :: '/' :: t.markupName.toList ++ ['>']

theorem readEnd_endTag (t : Tag) (rest : List Char) : readEnd t (endTag t ++ rest) = some rest := by
  have hsplit : endTag t ++ rest = '<' :: '/' :: (t.markupName.toList ++ '>' :: rest) := by
    simp [endTag]
  have hstop : ∀ c ∈ ('>' :: rest).head?, isNameChar c = false := by simp [isNameChar]
  rw [hsplit, readEnd, dropWhile_run (isNameChar_markupName t) hstop,
    takeWhile_run (isNameChar_markupName t) hstop]
  simp

/-- A start tag up to its end. -/
def startTag (x : Node) : List Char := '<' :: x.tag.markupName.toList ++ attributes x

/-- The names of the attributes of a node are such that markup can hold them. -/
def Legible (x : Node) : Prop := ∀ e ∈ x.attributes.entries, IsName e.1

instance : DecidablePred Legible := fun _ => inferInstanceAs (Decidable (∀ e ∈ _, _))

theorem isName_shown {x : Node} (h : Legible x) : ∀ e ∈ shownAttributes x, IsName e.1 := by
  intro e he
  rcases List.mem_append.mp he with he | he
  · exact h e he
  · have hstyle : IsName "style" := by decide
    split at he
    · cases he
    · obtain rfl := List.mem_singleton.mp he
      exact hstyle

theorem head_attributes (x : Node) (hrest : EndsStart rest) :
    ∀ c ∈ (attributes x ++ rest).head?, isNameChar c = false := by
  rw [attributes_eq]
  cases shownAttributes x with
  | nil => rcases hrest with ⟨r, rfl⟩ | ⟨r, rfl⟩ <;> simp [isNameChar]
  | cons e es => simp [written, nameAndValue, isNameChar]

theorem length_le_attributes (x : Node) : (shownAttributes x).length ≤ (attributes x).length := by
  rw [attributes_eq]
  induction shownAttributes x with
  | nil => simp
  | cons e es ih =>
    have hpos : 0 < (written e).length := by simp [written, nameAndValue]
    rw [List.flatMap_cons, List.length_append, List.length_cons]
    omega

/-- The kind and the attributes of a node are recovered from its start tag. -/
theorem readStart_startTag {x : Node} (h : Legible x) (hrest : EndsStart rest) :
    readStart (x.tag.markupName.toList ++ (attributes x ++ rest)) =
      some ((x.tag, shownAttributes x), rest) := by
  have hstop := head_attributes x hrest
  have hchars := isNameChar_markupName x.tag
  have hread : readAttributes ((x.tag.markupName.toList ++ (attributes x ++ rest)).length + 1)
      (attributes x ++ rest) = some (shownAttributes x, rest) := by
    have hlength := length_le_attributes x
    rw [attributes_eq] at hlength ⊢
    refine readAttributes_append (isName_shown h) hrest ?_
    simp only [List.length_append]
    omega
  rw [readStart, takeWhile_run hchars hstop, dropWhile_run hchars hstop,
    ofMarkupName?_markupName, hread]
  rfl

theorem readContent_void {x : Node} (h : Legible x) (limit : Nat) (rest : List Char) :
    readContent (limit + 1) (startTag x ++ ' ' :: '/' :: '>' :: rest) =
      (readContent limit rest).map fun r =>
        (.element x.tag (shownAttributes x) [] :: r.1, r.2) := by
  have hend : EndsStart (' ' :: '/' :: '>' :: rest) := .inr ⟨_, rfl⟩
  rw [startTag, List.cons_append, List.cons_append, List.append_assoc,
    readContent.eq_4 _ _ (ne_slash_of_head x.tag _),
    readStart_startTag h hend]
  simp only
  cases readContent limit rest <;> rfl

theorem readContent_open {x : Node} (h : Legible x) {limit : Nat} {content : List Char}
    {items : List Item} (hcontent : readContent limit (content ++ (endTag x.tag ++ rest)) =
      some (items, endTag x.tag ++ rest)) :
    readContent (limit + 1) (startTag x ++ '>' :: (content ++ (endTag x.tag ++ rest))) =
      (readContent limit rest).map fun r =>
        (.element x.tag (shownAttributes x) items :: r.1, r.2) := by
  have hend : EndsStart ('>' :: (content ++ (endTag x.tag ++ rest))) := .inl ⟨_, rfl⟩
  rw [startTag, List.cons_append, List.cons_append, List.append_assoc,
    readContent.eq_4 _ _ (ne_slash_of_head x.tag _),
    readStart_startTag h hend]
  simp only [hcontent, Option.bind_eq_bind, Option.bind_some, readEnd_endTag]
  cases readContent limit rest <;> rfl

end Markup

end FormPage
