import FormPage.Proofs.Document.Search
import FormPage.Proofs.Submission.Posted

/-!
The protocol of requests. How a request ends, what it asks, what it sends and what it writes is said
here by rules that search nothing (`Request.Ends`): the nearest form on the way up, the first of the
form's controls with the name of the request field, in document order, and one written value. Main
statement: a request does what one of the rules says, and no other one applies (`send_eq_iff`).
-/

namespace FormPage

open Document Relation

/-- The text of an intent is the control, a colon and the value. -/
theorem Intent.text_eq (control value : String) :
    Intent.text ⟨control, value⟩ = control ++ ":" ++ value := by
  rw [← String.toList_inj]
  simp [Intent.text, Intent.chars]

variable {d d' : Document} {n form field control : NodeId} {name value : String}

namespace Document

/-! ### Controls by name -/

/-- A control of a form with a name: an input, a button or a select below the form. -/
structure NamedControl (d : Document) (form : NodeId) (name : String) (n : NodeId) : Prop where
  below : d.Above form n
  control : d.tag? n = some .input ∨ d.tag? n = some .button ∨ d.tag? n = some .select
  named : d.attribute? n "name" = some name

/-- The first control of a form with a name, in document order. -/
structure FirstNamedControl (d : Document) (form : NodeId) (name : String) (n : NodeId) :
    Prop where
  control : d.NamedControl form name n
  first : ∃ earlier later, d.preorder form = earlier ++ n :: later ∧
    ∀ m ∈ earlier, ¬ d.NamedControl form name m

theorem NamedControl.lt_size (h : d.NamedControl form name n) : n < d.size := by
  rcases h.control with ht | ht | ht <;> exact lt_size_of_tag ht

/-- What the look-up tests of a node below the form. -/
theorem WellFormed.namedControl_iff (h : WellFormed d) (hn : n ∈ d.descendants form) :
    ((d.tag? n = some .input || d.tag? n = some .button || d.tag? n = some .select) &&
      d.attribute? n "name" = some name) = true ↔ d.NamedControl form name n := by
  simp only [Bool.and_eq_true, Bool.or_eq_true, decide_eq_true_eq]
  exact ⟨fun ⟨hcontrol, hname⟩ => ⟨h.mem_descendants.mp hn, by tauto, hname⟩,
    fun hc => ⟨by have := hc.control; tauto, hc.named⟩⟩

/-- Of a form with a control, the nodes in document order are the form and those below it. -/
theorem WellFormed.preorder_of_control (h : WellFormed d) (hc : d.NamedControl form name n) :
    d.preorder form = form :: d.descendants form := by
  obtain ⟨k, -, hk⟩ := TransGen.tail'_iff.mp hc.below
  exact h.preorder_eq_cons (h.parent_lt k form hk)

theorem WellFormed.namedControl?_eq_none_iff (h : WellFormed d) :
    d.namedControl? form name = none ↔ ∀ n, ¬ d.NamedControl form name n := by
  rw [namedControl?, List.find?_eq_none]
  constructor
  · intro hnone n hc
    have hn := h.mem_descendants.mpr hc.below
    exact hnone n hn ((h.namedControl_iff hn).mpr hc)
  · intro hnone n hn hc
    exact hnone n ((h.namedControl_iff hn).mp hc)

/-- The look-up by a name picks the first control. -/
theorem WellFormed.namedControl?_eq_some_iff (h : WellFormed d) :
    d.namedControl? form name = some n ↔ d.FirstNamedControl form name n := by
  have hself : ¬ d.NamedControl form name form := fun hc => h.not_above_self form hc.below
  rw [namedControl?, List.find?_eq_some_iff_append]
  constructor
  · rintro ⟨hn, earlier, later, hsplit, hearlier⟩
    have hmem : ∀ m ∈ earlier ++ n :: later, m ∈ d.descendants form := fun m hm => hsplit ▸ hm
    have hc := (h.namedControl_iff (hmem n (by simp))).mp hn
    refine ⟨hc, form :: earlier, later, ?_, List.forall_mem_cons.mpr ⟨hself, fun m hm hm' => ?_⟩⟩
    · rw [h.preorder_of_control hc, hsplit, List.cons_append]
    · have hno := hearlier m hm
      rw [(h.namedControl_iff (hmem m (List.mem_append_left _ hm))).mpr hm'] at hno
      cases hno
  · rintro ⟨hc, earlier, later, hsplit, hearlier⟩
    rw [h.preorder_of_control hc] at hsplit
    -- the form comes first, and it is not the control
    cases earlier with
    | nil =>
      obtain ⟨rfl, -⟩ := List.cons.inj hsplit
      exact absurd hc hself
    | cons m earlier =>
      obtain ⟨-, hsplit⟩ := List.cons.inj hsplit
      have hmem : ∀ k ∈ earlier ++ n :: later, k ∈ d.descendants form := fun k hk => hsplit ▸ hk
      refine ⟨(h.namedControl_iff (hmem n (by simp))).mpr hc, earlier, later, hsplit,
        fun k hk => ?_⟩
      rw [Bool.not_eq_true', ← Bool.not_eq_true,
        h.namedControl_iff (hmem k (List.mem_append_left _ hk))]
      exact hearlier k (List.mem_cons_of_mem m hk)

/-! ### One written value -/

/-- `d'` is `d` with a value written into one node, and nothing else. -/
structure ValueWritten (d : Document) (n : NodeId) (value : String) (d' : Document) : Prop where
  size : d'.size = d.size
  reportsOffsets : d'.reportsOffsets = d.reportsOffsets
  written : ∃ x, d.node? n = some x ∧
    d'.node? n = some { x with attributes := x.attributes.insert "value" value }
  other : ∀ m, m ≠ n → d'.node? m = d.node? m

theorem valueWritten_iff (hn : n < d.size) :
    d.ValueWritten n value d' ↔ d' = d.writeValue n value := by
  obtain ⟨x, hx⟩ := exists_node hn
  have hwritten : (d.writeValue n value).node? n =
      some { x with attributes := x.attributes.insert "value" value } := by
    rw [writeValue, node?_update, if_pos rfl, hx, Option.map_some]
  have hother : ∀ m, m ≠ n → (d.writeValue n value).node? m = d.node? m := fun m hm => by
    rw [writeValue, node?_update, if_neg (Ne.symm hm)]
  constructor
  · rintro ⟨-, hreports, ⟨y, hy, hy'⟩, hd'⟩
    obtain rfl := Option.some.inj (hx.symm.trans hy)
    refine eq_of_node? (fun m => ?_) hreports
    by_cases hm : m = n
    · rw [hm, hy', hwritten]
    · rw [hd' m hm, hother m hm]
  · rintro rfl
    exact ⟨size_writeValue, rfl, ⟨x, hx, hwritten⟩, hother⟩

end Document

/-! ### The protocol -/

namespace Request

/-- How a request ends. Without a form around the control or without a control of that form under
the name of the request field nothing is written, asked or sent. Else the first such control gets
the name of the asking control, a colon and the value, and nothing else is written; the user is
asked once, for the label of the asking control; and the form is sent once, as it then stands, if
the user agrees, and not if not. -/
inductive Ends (d : Document) (control : NodeId) (value fieldName : String)
    (confirm : String → Bool) : Answer → Document → Prop
  | missingForm (hform : Ascends d .form (some control) none) :
    Ends d control value fieldName confirm { outcome := .missingForm } d
  | missingField {form : NodeId} (hform : Ascends d .form (some control) (some form))
      (hnone : ∀ n, ¬ d.NamedControl form fieldName n) :
    Ends d control value fieldName confirm { outcome := .missingField } d
  | declined {form field : NodeId} {d' : Document}
      (hform : Ascends d .form (some control) (some form))
      (hfield : d.FirstNamedControl form fieldName field)
      (hd' : d.ValueWritten field ((d.attribute? control "name").getD "" ++ ":" ++ value) d')
      (hno : confirm (d'.valueOrText control) = false) :
    Ends d control value fieldName confirm
      { outcome := .declined, prompts := [d'.valueOrText control] } d'
  | submitted {form field : NodeId} {d' : Document}
      (hform : Ascends d .form (some control) (some form))
      (hfield : d.FirstNamedControl form fieldName field)
      (hd' : d.ValueWritten field ((d.attribute? control "name").getD "" ++ ":" ++ value) d')
      (hyes : confirm (d'.valueOrText control) = true) :
    Ends d control value fieldName confirm
      { outcome := .submitted, prompts := [d'.valueOrText control],
        submissions := [d'.collect form] } d'

theorem send_of_missingForm (hform : d.nearestAbove? (some control) .form = none)
    (value fieldName : String) (confirm : String → Bool) :
    send d control value fieldName confirm = ({ outcome := .missingForm }, d) := by
  rw [send, hform]

theorem send_of_missingField (hform : d.nearestAbove? (some control) .form = some form)
    (hfield : d.namedControl? form name = none) (value : String) (confirm : String → Bool) :
    send d control value name confirm = ({ outcome := .missingField }, d) := by
  simp only [send, hform, hfield]

section Search

variable (h : WellFormed d) (hup : Acyclic d.upward? d.size)
include h hup

/-- A request follows the protocol. -/
theorem ends_send (control : NodeId) (value fieldName : String) (confirm : String → Bool) :
    Ends d control value fieldName confirm (send d control value fieldName confirm).1
      (send d control value fieldName confirm).2 := by
  cases hform : d.nearestAbove? (some control) .form with
  | none =>
    rw [send_of_missingForm hform]
    exact .missingForm ((nearestAbove?_eq_iff hup).mp hform)
  | some form =>
    have hform' := (nearestAbove?_eq_iff hup).mp hform
    cases hfield : d.namedControl? form fieldName with
    | none =>
      rw [send_of_missingField hform hfield]
      exact .missingField hform' (h.namedControl?_eq_none_iff.mp hfield)
    | some field =>
      have hfirst := h.namedControl?_eq_some_iff.mp hfield
      have hwritten : ∀ text, d.ValueWritten field text (d.writeValue field text) := fun text =>
        (valueWritten_iff hfirst.control.lt_size).mpr rfl
      rw [send_of_found hform hfield, Intent.text_eq]
      dsimp only
      split
      · rename_i hyes
        exact .submitted hform' hfirst (hwritten _) hyes
      · rename_i hno
        exact .declined hform' hfirst (hwritten _) (Bool.not_eq_true _ ▸ hno)

/-- What the protocol says of a request is what the request does. -/
theorem Ends.send_eq {fieldName : String} {confirm : String → Bool} {answer : Answer}
    (hends : Ends d control value fieldName confirm answer d') :
    send d control value fieldName confirm = (answer, d') := by
  cases hends with
  | missingForm hform => exact send_of_missingForm ((nearestAbove?_eq_iff hup).mpr hform) _ _ _
  | missingField hform hnone =>
    exact send_of_missingField ((nearestAbove?_eq_iff hup).mpr hform)
      (h.namedControl?_eq_none_iff.mpr hnone) _ _
  | declined hform hfield hd' hno =>
    obtain rfl := (valueWritten_iff hfield.control.lt_size).mp hd'
    rw [send_of_found ((nearestAbove?_eq_iff hup).mpr hform)
      (h.namedControl?_eq_some_iff.mpr hfield), Intent.text_eq]
    simp only [hno, Bool.false_eq_true, if_false]
  | submitted hform hfield hd' hyes =>
    obtain rfl := (valueWritten_iff hfield.control.lt_size).mp hd'
    rw [send_of_found ((nearestAbove?_eq_iff hup).mpr hform)
      (h.namedControl?_eq_some_iff.mpr hfield), Intent.text_eq]
    simp only [hyes, if_true]

end Search

/-- In a document that operations can lead to, and in which no node is reached again by going
upwards, every request ends, and it does what a rule of the protocol says: no other rule applies. -/
theorem send_eq_iff (hd : Reachable d) (hloop : ∀ n, ¬ TransGen (Step d.upward?) n n)
    (control : NodeId) (value fieldName : String) (confirm : String → Bool) (answer : Answer)
    (d' : Document) :
    send d control value fieldName confirm = (answer, d') ↔
      Ends d control value fieldName confirm answer d' := by
  have h := hd.wellFormed
  have hup := h.acyclic_upward hloop
  refine ⟨fun hsend => ?_, fun hends => hends.send_eq h hup⟩
  have hends := ends_send h hup control value fieldName confirm
  rwa [hsend] at hends

/-- A form with two controls of one name, and a button that hangs nowhere and is linked to the form
as its positioned ancestor. -/
def looseForm : Document :=
  after ([.createElement .form, .createElement .input, .setAttribute 3 "name" "r",
    .createElement .button, .setAttribute 4 "name" "r", .createElement .button,
    .setAttribute 5 "name" "Save", .setAttribute 5 "value" "Save it", .appendChild body 2,
    .appendChild 2 3, .appendChild 2 4, .setOffsetParent 5 (some 2)].map .call)

theorem looseForm_loopless : ∀ n, ¬ TransGen (Step looseForm.upward?) n n :=
  irrefl_of_upward_lt (by decide +kernel)

/-- The button asks for its own label, and the form is sent with what its first control was
given. -/
theorem ends_looseForm : (∀ n, ¬ TransGen (Step looseForm.upward?) n n) ∧
    ∃ d', Ends looseForm 5 "v" "r" (fun _ => true)
      { outcome := .submitted, prompts := ["Save it"],
        submissions := [{ fields := [("r", "Save:v")] }] } d' :=
  ⟨looseForm_loopless, _, (send_eq_iff ⟨_, rfl⟩ looseForm_loopless 5 "v" "r" (fun _ => true) _
    (send looseForm 5 "v" "r" fun _ => true).2).mp (Prod.ext (by decide +kernel) rfl)⟩

end Request

end FormPage
