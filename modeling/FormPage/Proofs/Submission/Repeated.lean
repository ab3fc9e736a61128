import FormPage.Proofs.Submission.Protocol

/-!
Requests after earlier ones. All requests to one form under one name write into one control, and
what a request reads does not depend on what stands there: each starts with a write of its own. So a
document that was asked in before is the given one but for a value of that control (`Overwritten`),
and of two values written into it only the last is seen. Main statement: after any such requests,
sent or declined, a request asks, sends and leaves what it would have without them
(`send_after_asked`).
-/

namespace FormPage

open Document Relation

variable {d d' : Document} {n m form field control : NodeId} {field? : Option NodeId}
  {value fieldName : String} {confirm : String → Bool}

namespace Document

/-! ### Searches past a written value -/

theorem upward?_writeValue : (d.writeValue n value).upward? m = d.upward? m := by
  have hparent : (d.writeValue n value).parent? m = d.parent? m := parent?_update fun _ => rfl
  have hlink : (d.writeValue n value).offsetLink? m = d.offsetLink? m :=
    offsetLink?_update fun _ => rfl
  rw [upward?, upward?, offsetParent?, offsetParent?, hparent, hlink]
  rfl

theorem nearestAbove?_writeValue {start : Option NodeId} {tag : Tag} :
    (d.writeValue n value).nearestAbove? start tag = d.nearestAbove? start tag := by
  have hup : (d.writeValue n value).upward? = d.upward? := funext fun _ => upward?_writeValue
  simp only [nearestAbove?, firstTagged, path, hup, size_writeValue, tag?_writeValue]

/-! ### A value that may have been written -/

/-- `d'` is `d`, or `d` with a value written into the control that is picked, if one is. -/
inductive Overwritten (d : Document) : Option NodeId → Document → Prop
  | unwritten {field? : Option NodeId} : Overwritten d field? d
  | written {field : NodeId} {text : String} : Overwritten d (some field) (d.writeValue field text)

namespace Overwritten

theorem eq_of_none (h : Overwritten d none d') : d' = d := by
  cases h
  rfl

/-- A further value hides the one that may have been written. -/
theorem writeValue_eq (h : Overwritten d (some field) d') (text : String) :
    d'.writeValue field text = d.writeValue field text := by
  cases h with
  | unwritten => rfl
  | written => exact writeValue_writeValue text

theorem name_eq (h : Overwritten d field? d') : d'.attribute? control "name" =
    d.attribute? control "name" := by
  cases h with
  | unwritten => rfl
  | written => exact attribute?_writeValue (.inr (by decide))

theorem namedControl?_eq (h : Overwritten d field? d') :
    d'.namedControl? form fieldName = d.namedControl? form fieldName := by
  cases h with
  | unwritten => rfl
  | written => exact namedControl?_writeValue

theorem nearestAbove?_eq (h : Overwritten d field? d') {start : Option NodeId} {tag : Tag} :
    d'.nearestAbove? start tag = d.nearestAbove? start tag := by
  cases h with
  | unwritten => rfl
  | written => exact nearestAbove?_writeValue

theorem acyclic_upward (h : Overwritten d field? d') (hup : Acyclic d.upward? d.size) :
    Acyclic d'.upward? d'.size := by
  cases h with
  | unwritten => exact hup
  | @written field text =>
    have hsame : (d.writeValue field text).upward? = d.upward? := funext fun _ => upward?_writeValue
    rw [size_writeValue, hsame]
    exact hup

theorem ascends_iff (h : Overwritten d field? d') (hup : Acyclic d.upward? d.size)
    {start answer : Option NodeId} {tag : Tag} :
    Ascends d' tag start answer ↔ Ascends d tag start answer := by
  rw [← nearestAbove?_eq_iff (h.acyclic_upward hup), ← nearestAbove?_eq_iff hup,
    h.nearestAbove?_eq]

end Overwritten

end Document

namespace Request

/-- A request writes into no other control than the one that is picked. -/
theorem overwritten_send (hform : d.nearestAbove? (some control) .form = some form) :
    Overwritten d (d.namedControl? form fieldName)
      (send d control value fieldName confirm).2 := by
  cases hfield : d.namedControl? form fieldName with
  | none =>
    rw [send_of_missingField hform hfield]
    exact .unwritten
  | some field =>
    rw [send_of_found hform hfield]
    dsimp only
    split <;> exact .written

end Request

/-- What a request does is not changed by a value that was written into its control before. -/
theorem Document.Overwritten.send_eq (h : Overwritten d (d.namedControl? form fieldName) d')
    (hform : d.nearestAbove? (some control) .form = some form) :
    Request.send d' control value fieldName confirm =
      Request.send d control value fieldName confirm := by
  have hform' : d'.nearestAbove? (some control) .form = some form := h.nearestAbove?_eq ▸ hform
  have hsame : d'.namedControl? form fieldName = d.namedControl? form fieldName :=
    h.namedControl?_eq
  cases hfield : d.namedControl? form fieldName with
  | none =>
    rw [hfield] at h
    rw [h.eq_of_none]
  | some field =>
    rw [hfield] at h hsame
    rw [Request.send_of_found hform' hsame, Request.send_of_found hform hfield, h.name_eq]
    simp only [h.writeValue_eq]

namespace Request

/-- Requests under one name, any number of them and with any values and answers, each by a control
whose nearest form is `form` when it asks, lead from `d` to `d'`. -/
inductive Asked (form : NodeId) (fieldName : String) (d : Document) : Document → Prop
  | start : Asked form fieldName d d
  | more {d' : Document} (h : Asked form fieldName d d') {control : NodeId}
      (hcontrol : Ascends d' .form (some control) (some form)) (value : String)
      (confirm : String → Bool) :
      Asked form fieldName d (send d' control value fieldName confirm).2

/-- However often they ask, requests leave one written value. -/
theorem Asked.overwritten (hup : Acyclic d.upward? d.size) (h : Asked form fieldName d d') :
    Overwritten d (d.namedControl? form fieldName) d' := by
  induction h with
  | start => exact .unwritten
  | more _ hcontrol value confirm ih =>
    have hform := (nearestAbove?_eq_iff hup).mpr ((ih.ascends_iff hup).mp hcontrol)
    rw [ih.send_eq hform]
    exact overwritten_send hform

/-- Earlier requests to a form under one name leave no trace. In a document that operations can lead
to, and in which no node is reached again by going upwards, after any number of them the same
controls belong to the form, and each of them asks, sends and leaves the same as if the others had
never asked. If it may, it does send, provided that the form has a control of that name. -/
theorem send_after_asked (hd : Reachable d) (hloop : ∀ n, ¬ TransGen (Step d.upward?) n n)
    (h : Asked form fieldName d d') (control : NodeId) :
    (Ascends d' .form (some control) (some form) ↔ Ascends d .form (some control) (some form)) ∧
      (Ascends d .form (some control) (some form) → ∀ (value : String) (confirm : String → Bool),
        send d' control value fieldName confirm = send d control value fieldName confirm ∧
          ((∃ n, d.NamedControl form fieldName n) → (∀ label, confirm label = true) →
            ∃ s, (send d' control value fieldName confirm).1.submissions = [s])) := by
  have hup := hd.wellFormed.acyclic_upward hloop
  have hw := h.overwritten hup
  refine ⟨hw.ascends_iff hup, fun hcontrol value confirm => ?_⟩
  have hform := (nearestAbove?_eq_iff hup).mpr hcontrol
  refine ⟨hw.send_eq hform, fun ⟨n, hn⟩ hyes => ?_⟩
  rw [hw.send_eq hform]
  cases hfield : d.namedControl? form fieldName with
  | none => exact absurd hn (hd.wellFormed.namedControl?_eq_none_iff.mp hfield n)
  | some field =>
    rw [send_of_found hform hfield]
    exact ⟨_, by simp only [hyes, if_true]; rfl⟩

/-- `looseForm` after the button was declined and a control of the form was sent. -/
def askedForm : Document :=
  (send (send looseForm 5 "first" "r" fun _ => false).2 4 "second" "r" fun _ => true).2

theorem asked_askedForm : Asked 2 "r" looseForm askedForm := by
  have hup := (Reachable.wellFormed ⟨_, rfl⟩).acyclic_upward looseForm_loopless
  have hbutton : Ascends looseForm .form (some 5) (some 2) :=
    (nearestAbove?_eq_iff hup).mp (by decide +kernel)
  have hinput : Ascends looseForm .form (some 4) (some 2) :=
    (nearestAbove?_eq_iff hup).mp (by decide +kernel)
  have hdeclined : Asked 2 "r" looseForm (send looseForm 5 "first" "r" fun _ => false).2 :=
    .more .start hbutton _ _
  exact hdeclined.more (((hdeclined.overwritten hup).ascends_iff hup).mpr hinput) _ _

/-- What was asked before is still seen in the form, and the button sends its own intent. -/
theorem send_askedForm : (∀ n, ¬ TransGen (Step looseForm.upward?) n n) ∧
    Asked 2 "r" looseForm askedForm ∧ askedForm.attribute? 3 "value" = some "r:second" ∧
    send askedForm 5 "v" "r" (fun _ => true) = send looseForm 5 "v" "r" (fun _ => true) ∧
    ∃ s, (send askedForm 5 "v" "r" fun _ => true).1.submissions = [s] := by
  obtain ⟨-, hsame⟩ := send_after_asked ⟨_, rfl⟩ looseForm_loopless asked_askedForm 5
  have hup := (Reachable.wellFormed ⟨_, rfl⟩).acyclic_upward looseForm_loopless
  obtain ⟨heq, hsent⟩ := hsame ((nearestAbove?_eq_iff hup).mp (by decide +kernel)) "v" fun _ => true
  have hfield : looseForm.namedControl? 2 "r" = some 3 := by decide +kernel
  refine ⟨looseForm_loopless, asked_askedForm, by decide +kernel, heq, hsent ?_ fun _ => rfl⟩
  exact ⟨3, ((Reachable.wellFormed ⟨_, rfl⟩).namedControl?_eq_some_iff.mp hfield).control⟩

end Request

end FormPage
