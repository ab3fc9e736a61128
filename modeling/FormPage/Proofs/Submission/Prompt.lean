import FormPage.Proofs.Submission.Protocol

/-!
What the user is asked. The label of the asking control is read after the intent was written into
the request field, and a write changes the label of no other node. So the question is the label that
the page showed when the request was made, unless the form's first control with the name of the
request field is the asking control itself: then its own value has just been replaced, and the user
is asked for the intent. Main statement: `asked_of_prompted`.
-/

namespace FormPage

open Document Relation

variable {d : Document} {n m form field control : NodeId} {value fieldName : String}
  {confirm : String → Bool}

namespace Document

/-! ### Labels after a write -/

theorem valueOrText_writeValue (h : m ≠ n) :
    (d.writeValue n value).valueOrText m = d.valueOrText m := by
  rw [valueOrText, valueOrText, attribute?_writeValue (.inl h), textContent_writeValue]

/-- A node into which a value was written is labelled with it. -/
theorem valueOrText_writeValue_self (h : n < d.size) :
    (d.writeValue n value).valueOrText n = value := by
  rw [valueOrText, attribute?_writeValue_self h, Option.getD_some]

end Document

namespace Request

/-! ### The question -/

/-- A request whose form and field are found asks for the label that follows the write. -/
theorem prompts_of_found (hform : d.nearestAbove? (some control) .form = some form)
    (hfield : d.namedControl? form fieldName = some field) :
    (send d control value fieldName confirm).1.prompts =
      [(d.writeValue field ((d.attribute? control "name").getD "" ++ ":" ++ value)).valueOrText
        control] := by
  rw [send_of_found hform hfield, Intent.text_eq]
  dsimp only
  split <;> rfl

/-- A request that asks has found its form and its field. -/
theorem found_of_prompted {p : String}
    (hp : p ∈ (send d control value fieldName confirm).1.prompts) :
    ∃ form field, d.nearestAbove? (some control) .form = some form ∧
      d.namedControl? form fieldName = some field := by
  cases hform : d.nearestAbove? (some control) .form with
  | none =>
    rw [send_of_missingForm hform] at hp
    cases hp
  | some form =>
    cases hfield : d.namedControl? form fieldName with
    | none =>
      rw [send_of_missingField hform hfield] at hp
      cases hp
    | some field => exact ⟨form, field, rfl, hfield⟩

/-- In a document that operations can lead to, and in which no node is reached again by going
upwards, a request asks at most once. It asks for the label that the control had before, unless the
control is itself the one that the request is written into; then it asks for the text that it wrote.
So the question is the label that the page showed exactly if the control is another one, or if that
text was its label before. -/
theorem asked_of_prompted (hd : Reachable d) (hloop : ∀ n, ¬ TransGen (Step d.upward?) n n)
    (control : NodeId) (value fieldName : String) (confirm : String → Bool) {p : String}
    (hp : p ∈ (send d control value fieldName confirm).1.prompts) :
    ∃ form field, Ascends d .form (some control) (some form) ∧
      d.FirstNamedControl form fieldName field ∧
      (send d control value fieldName confirm).1.prompts = [p] ∧
      p = (if field = control then fieldName ++ ":" ++ value else d.valueOrText control) ∧
      (p = d.valueOrText control ↔
        field ≠ control ∨ d.valueOrText control = fieldName ++ ":" ++ value) := by
  have h := hd.wellFormed
  have hup := h.acyclic_upward hloop
  obtain ⟨form, field, hform, hfield⟩ := found_of_prompted hp
  have hfirst := h.namedControl?_eq_some_iff.mp hfield
  have hprompts : (send d control value fieldName confirm).1.prompts = _ :=
    prompts_of_found hform hfield
  rw [hprompts] at hp ⊢
  obtain rfl := List.mem_singleton.mp hp
  refine ⟨form, field, (nearestAbove?_eq_iff hup).mp hform, hfirst, rfl, ?_⟩
  by_cases hself : field = control
  · subst hself
    rw [valueOrText_writeValue_self hfirst.control.lt_size, hfirst.control.named,
      Option.getD_some, if_pos rfl]
    refine ⟨rfl, fun heq => .inr heq.symm, fun hor => ?_⟩
    exact (hor.resolve_left fun hne => hne rfl).symm
  · rw [valueOrText_writeValue (Ne.symm hself), if_neg hself]
    exact ⟨rfl, fun _ => .inl hself, fun _ => rfl⟩

/-- The loose button of `looseForm` is asked about by its own label, since the form's first control
of that name is another one. -/
theorem asked_looseForm : (∀ n, ¬ TransGen (Step looseForm.upward?) n n) ∧
    "Save it" ∈ (send looseForm 5 "v" "r" fun _ => false).1.prompts ∧
    "Save it" = looseForm.valueOrText 5 := by
  have hp : "Save it" ∈ (send looseForm 5 "v" "r" fun _ => false).1.prompts := by decide +kernel
  obtain ⟨form, field, hform, hfield, -, -, hlabel⟩ :=
    asked_of_prompted ⟨_, rfl⟩ looseForm_loopless 5 "v" "r" _ hp
  refine ⟨looseForm_loopless, hp, hlabel.mpr (.inl ?_)⟩
  have hup := (Reachable.wellFormed ⟨_, rfl⟩).acyclic_upward looseForm_loopless
  have htwo : looseForm.nearestAbove? (some 5) .form = some 2 := by decide +kernel
  obtain rfl := Option.some.inj (htwo.symm.trans ((nearestAbove?_eq_iff hup).mpr hform))
  have hthree : looseForm.namedControl? 2 "r" = some 3 := by decide +kernel
  obtain rfl := Option.some.inj (hthree.symm.trans
    ((Reachable.wellFormed ⟨_, rfl⟩).namedControl?_eq_some_iff.mpr hfield))
  decide

/-- A form whose only control is a labelled button that bears the name of the request field. -/
def labelledForm : Document :=
  after ([.createElement .form, .createElement .button, .setAttribute 3 "name" "r",
    .setAttribute 3 "value" "Save it", .appendChild body 2, .appendChild 2 3].map .call)

/-- The question need not be the label that the page showed: the button is asked about by what has
just been written into it. -/
theorem overwritten_labelledForm :
    ¬ ∀ (d : Document) (control : NodeId) (value fieldName : String) (confirm : String → Bool),
      Reachable d → (∀ n, ¬ TransGen (Step d.upward?) n n) →
        ∀ p ∈ (send d control value fieldName confirm).1.prompts, p = d.valueOrText control := by
  intro h
  have hloop : ∀ n, ¬ TransGen (Step labelledForm.upward?) n n :=
    irrefl_of_upward_lt (by decide +kernel)
  have hlabel := h labelledForm 3 "v" "r" (fun _ => false) ⟨_, rfl⟩ hloop "r:v" (by decide +kernel)
  have hbefore : labelledForm.valueOrText 3 = "Save it" := by decide +kernel
  rw [hbefore] at hlabel
  exact absurd hlabel (by decide)

end Request

end FormPage
