import FormPage.Proofs.Document.Arena

/-!
The documents that can be reached from the empty one by any sequence of operations with any
arguments, failing ones included. Main statement: every such document is well-formed, and no
operation on it, spelt out as calls of the interface, ever looks outside the array of nodes.
-/

namespace FormPage.Document

/-- One operation on a document: a call of its interface, or what is built on it. The handle of a
balloon is any handle, also one that was filled by another document. -/
inductive Operation where
  | call (k : Call)
  | addRow (control : NodeId) (field : String)
  | addNamedRow (control : NodeId)
  | sendRequest (control : NodeId) (value fieldName : String) (confirm : String → Bool)
  | adoptBalloon (b : Balloon)
  | showBalloon (b : Balloon) (target : NodeId) (text : String)
  | hideBalloon (b : Balloon)

/-- The document after an operation, also after one that failed. -/
def Operation.run : Operation → Document → Document
  | call k, d => k.run d
  | addRow control field, d => (Row.add d control field).2
  | addNamedRow control, d => (Row.addNamed d control).2
  | sendRequest control value fieldName confirm, d =>
    (Request.send d control value fieldName confirm).2
  | adoptBalloon b, d => (b.adopt d).2.2
  | showBalloon b target text, d => (b.showAt d target text).2.2
  | hideBalloon b, d => b.hide d

/-- The document after a sequence of operations on the empty one. -/
def after (ops : List Operation) : Document := ops.foldl (fun d o => o.run d) empty

/-- A document that some sequence of operations leads to. -/
def Reachable (d : Document) : Prop := ∃ ops, d = after ops

variable {P : Document → Prop} {d : Document}

/-- What every call keeps is kept by every operation. -/
theorem Operation.run_kept (hP : Kept P) (h : P d) (o : Operation) : P (o.run d) := by
  cases o with
  | call k => exact hP k d h
  | addRow control field => exact Row.add_kept hP h control field
  | addNamedRow control => exact Row.add_kept hP h control _
  | sendRequest control value fieldName confirm =>
    exact Request.send_kept hP h control value fieldName confirm
  | adoptBalloon b => exact Balloon.adopt_kept hP h b
  | showBalloon b target text => exact Balloon.showAt_kept hP h b target text
  | hideBalloon b => exact Balloon.hide_kept hP h b

theorem run_all_kept (hP : Kept P) : ∀ (ops : List Operation) {d : Document}, P d →
    P (ops.foldl (fun d o => o.run d) d)
  | [], _, h => h
  | o :: ops, _, h => run_all_kept hP ops (o.run_kept hP h)

theorem wellFormed_after (ops : List Operation) : WellFormed (after ops) :=
  run_all_kept wellFormed_kept ops wellFormed_empty

theorem Reachable.wellFormed (h : Reachable d) : WellFormed d := by
  obtain ⟨ops, rfl⟩ := h
  exact wellFormed_after ops

/-- A well-formed document whose body is one. -/
def Bodied (d : Document) : Prop := WellFormed d ∧ d.tag? body = some .body

theorem bodied_kept : Kept Bodied := fun k _ h => ⟨k.run_wellFormed h.1, k.tag?_run h.2⟩

theorem Reachable.bodied (h : Reachable d) : Bodied d := by
  obtain ⟨ops, rfl⟩ := h
  exact run_all_kept bodied_kept ops ⟨wellFormed_empty, rfl⟩

/-- The documents that checked calls lead to from a given one. -/
def CheckedFrom (d d' : Document) : Prop :=
  WellFormed d' ∧ ∃ ks : List Call, ks.foldlM (fun d k => k.checked d) d = some d'

theorem checkedFrom_kept (d : Document) : Kept (CheckedFrom d) := by
  rintro k d' ⟨h, ks, hks⟩
  refine ⟨k.run_wellFormed h, ks ++ [k], ?_⟩
  rw [List.foldlM_append, hks]
  simp [h.checked_eq k]

/-- After any operations every stored index names a node, parents and children agree, no list of
children repeats a node, nothing lies above itself, the root has no parent, inputs and texts have no
children and texts no attributes. Hence no call, whatever it is given, and no operation, spelt out
as calls, looks outside the array of nodes. -/
theorem links_sound_after (ops : List Operation) :
    WellFormed (after ops) ∧
      (∀ k : Call, k.checked (after ops) = some (k.run (after ops))) ∧
      (∀ n, checkedSibling following (after ops) n = some ((after ops).nextSibling? n)) ∧
      (∀ n, checkedSibling preceding (after ops) n = some ((after ops).previousSibling? n)) ∧
      (∀ n, (after ops).checkedTextContent n = some ((after ops).textContent n)) ∧
      ∀ o : Operation, ∃ ks : List Call,
        ks.foldlM (fun d k => k.checked d) (after ops) = some (o.run (after ops)) := by
  have h := wellFormed_after ops
  refine ⟨h, h.checked_eq, h.checkedSibling_eq following, h.checkedSibling_eq preceding,
    h.checkedTextContent_eq, fun o => ?_⟩
  have hrun : CheckedFrom (after ops) (o.run (after ops)) :=
    o.run_kept (checkedFrom_kept _) ⟨h, [], rfl⟩
  exact hrun.2

end FormPage.Document
