import FormPage.Proofs.Document.Reachable
import FormPage.Proofs.Document.Tree
import FormPage.Proofs.OrderedMap

/-!
What a form posts after an intent was written into one of its controls. The control is picked by its
name among inputs, buttons and selects, while only some inputs post the value that is written into
them. Main statement: where the picked control is such an input the submission carries the written
text, which is read back as the intent exactly if the name of the asking control has no colon; where
it is not, the form posts what it would have posted without the request.
-/

namespace FormPage

/-! ### Reading an intent back -/

namespace Intent

theorem no_colon_before {cs a b : List Char} (h : splitAtColon cs = some (a, b)) : ':' ∉ a := by
  induction cs generalizing a b with
  | nil => cases h
  | cons c cs ih =>
    rw [splitAtColon] at h
    split at h
    · cases h; exact List.not_mem_nil
    · rename_i hc
      obtain ⟨⟨a', b'⟩, hs, hab⟩ := Option.map_eq_some_iff.mp h
      cases hab
      rw [List.mem_cons, not_or]
      exact ⟨Ne.symm hc, ih hs⟩

/-- An intent is read back from its text exactly if its control has no colon. -/
theorem ofText?_text_iff (i : Intent) : ofText? i.text = some i ↔ ':' ∉ i.control.toList := by
  refine ⟨fun h => ?_, ofText?_text i⟩
  obtain ⟨⟨a, b⟩, hs, hab⟩ := Option.map_eq_some_iff.mp h
  have hcontrol : i.control.toList = a := by rw [← hab]; exact String.toList_ofList
  rw [hcontrol]
  exact no_colon_before hs

end Intent

namespace Document

variable {d : Document} {n m form field : NodeId} {k name value : String}

/-- The document in which the value of a node was written. -/
def writeValue (d : Document) (n : NodeId) (value : String) : Document :=
  d.update n fun x => { x with attributes := x.attributes.insert "value" value }

/-- Whether a node is an input that posts the value written into it: it has a name, is no button,
and is checked if it is a box. -/
def PostsWritten (d : Document) (n : NodeId) : Prop :=
  let kind := Text.lower ((d.attribute? n "type").getD "text")
  d.tag? n = some .input ∧ ((d.attribute? n "name").filter (· ≠ "")).isSome ∧
    kind ∉ ["button", "submit", "reset", "image"] ∧
    (kind ∈ ["checkbox", "radio"] → (d.attribute? n "checked").isSome)

instance (d : Document) (n : NodeId) : Decidable (d.PostsWritten n) :=
  inferInstanceAs (Decidable (_ ∧ _ ∧ _ ∧ _))

/-! ### What a written value changes -/

@[simp] theorem size_writeValue : (d.writeValue n value).size = d.size := size_update ..

/-- Of two values written into one node only the last is seen. -/
theorem writeValue_writeValue (value' : String) :
    (d.writeValue n value).writeValue n value' = d.writeValue n value' := by
  rw [writeValue, writeValue, update_update, writeValue]
  congr 1
  funext x
  simp only [Function.comp_apply, OrderedMap.insert_insert]

theorem tag?_writeValue : (d.writeValue n value).tag? m = d.tag? m :=
  map_node?_update (·.tag) fun _ => rfl

theorem attribute?_writeValue (h : m ≠ n ∨ k ≠ "value") :
    (d.writeValue n value).attribute? m k = d.attribute? m k := by
  rw [attribute?, attribute?, writeValue, node?_update]
  split
  · rename_i hnm
    have hk : k ≠ "value" := h.resolve_left fun hne => hne hnm.symm
    cases hx : d.node? m with
    | none => rfl
    | some x =>
      simp only [Option.map_some, Option.bind_some]
      rw [OrderedMap.get?_insert, if_neg hk]
  · rfl

theorem attribute?_writeValue_self (h : n < d.size) :
    (d.writeValue n value).attribute? n "value" = some value := by
  obtain ⟨x, hx⟩ := exists_node h
  rw [attribute?, writeValue, node?_update, if_pos rfl, hx]
  simp only [Option.map_some, Option.bind_some]
  rw [OrderedMap.get?_insert, if_pos rfl]

theorem descendants_writeValue : (d.writeValue n value).descendants m = d.descendants m := by
  refine descendants_congr (size_update ..) (fun _ => parent?_update ?_)
    (fun _ => children_update ?_) m <;> exact fun _ => rfl

theorem textContent_writeValue : (d.writeValue n value).textContent m = d.textContent m := by
  rw [textContent, textContent, fold, fold, show (d.writeValue n value).size = d.size from
    size_update ..]
  refine congrArg String.ofList (foldFrom_congr (fun x => (x.tag, x.text))
    (fun _ v below => if v.1 = .text then v.2.toList else below.flatten) (fun k => ?_) _ m)
  exact map_node?_update (fun x => ((x.tag, x.text), x.children)) fun _ => rfl

theorem namedControl?_writeValue :
    (d.writeValue n value).namedControl? form name = d.namedControl? form name := by
  simp only [namedControl?, descendants_writeValue, tag?_writeValue,
    attribute?_writeValue (k := "name") (.inr (by decide))]

/-- The first entry that passes a test, or else the first one, is an entry. -/
theorem mem_of_find?_or_head? {P : NodeId → Bool} {l : List NodeId}
    (h : (l.find? P).or l.head? = some n) : n ∈ l := by
  rcases Option.or_eq_some_iff.mp h with h | ⟨-, h⟩
  · exact List.mem_of_find?_eq_some h
  · exact List.mem_of_mem_head? h

theorem selectValue?_writeValue (h : d.tag? n ≠ some .option) :
    (d.writeValue n value).selectValue? m = d.selectValue? m := by
  have hoptions : ((d.writeValue n value).descendants m).filter
      (fun k => (d.writeValue n value).tag? k = some .option) =
        (d.descendants m).filter fun k => d.tag? k = some .option := by
    rw [descendants_writeValue]; simp only [tag?_writeValue]
  have hselected : (fun k => ((d.writeValue n value).attribute? k "selected").isSome) =
      fun k => (d.attribute? k "selected").isSome := by
    funext k; rw [attribute?_writeValue (k := "selected") (.inr (by decide))]
  rw [selectValue?, selectValue?, hoptions]
  simp only [hselected]
  -- the chosen node is an option, and the written one is none
  refine Option.map_congr fun k hk => ?_
  have hk : d.tag? k = some .option := by
    simpa using (List.mem_filter.mp (mem_of_find?_or_head? hk)).2
  have hkn : k ≠ n := fun hkn => h (by rw [← hkn]; exact hk)
  rw [valueOrText, valueOrText, textContent_writeValue, attribute?_writeValue (.inl hkn)]

theorem inputValue?_writeValue (htag : d.tag? m = some .input)
    (hname : ((d.attribute? m "name").filter (· ≠ "")).isSome) (h : m ≠ n ∨ ¬ d.PostsWritten n) :
    (d.writeValue n value).inputValue? m = d.inputValue? m := by
  rw [inputValue?, inputValue?, attribute?_writeValue (k := "type") (.inr (by decide)),
    attribute?_writeValue (k := "checked") (.inr (by decide))]
  by_cases hmn : m = n
  · subst hmn
    have hposts := h.resolve_left fun hne => hne rfl
    simp only [PostsWritten, htag, hname, true_and, not_and, Classical.not_imp] at hposts
    split
    · rfl
    · rename_i hbutton
      obtain ⟨hbox, hchecked⟩ := hposts hbutton
      rw [if_pos hbox, if_pos hbox, Option.not_isSome_iff_eq_none.mp hchecked]; rfl
  · rw [attribute?_writeValue (k := "value") (.inl hmn)]

/-- Nothing but an input that posts what is written into it posts anything else after a write. -/
theorem postedPair?_writeValue (hoption : d.tag? n ≠ some .option)
    (h : m ≠ n ∨ ¬ d.PostsWritten n) :
    (d.writeValue n value).postedPair? m = d.postedPair? m := by
  rw [postedPair?, postedPair?, attribute?_writeValue (k := "name") (.inr (by decide)),
    tag?_writeValue, selectValue?_writeValue hoption]
  cases hname : (d.attribute? m "name").filter (· ≠ "") with
  | none => rfl
  | some k =>
    simp only
    split
    · rename_i htag
      rw [inputValue?_writeValue htag (by rw [hname]; rfl) h]
    · rfl
    · rfl

theorem inputValue?_writeValue_self (h : d.PostsWritten n) :
    (d.writeValue n value).inputValue? n = some value := by
  obtain ⟨htag, -, hbutton, hbox⟩ := h
  rw [inputValue?, attribute?_writeValue (k := "type") (.inr (by decide)),
    attribute?_writeValue (k := "checked") (.inr (by decide)),
    attribute?_writeValue_self (lt_size_of_tag htag), if_neg hbutton]
  split
  · rename_i hkind
    obtain ⟨c, hc⟩ := Option.isSome_iff_exists.mp (hbox hkind)
    rw [hc]; rfl
  · rfl

/-! ### What is posted under the name of the picked control -/

theorem name_of_postedPair {p : String × String} (h : d.postedPair? m = some p) :
    d.attribute? m "name" = some p.1 ∧ (d.tag? m = some .input ∨ d.tag? m = some .select) := by
  rw [postedPair?] at h
  cases hname : (d.attribute? m "name").filter (· ≠ "") with
  | none => rw [hname] at h; cases h
  | some k =>
    rw [hname] at h
    have hk := (Option.filter_eq_some_iff.mp hname).1
    simp only at h
    split at h
    · rename_i ht
      obtain ⟨v, -, rfl⟩ := Option.map_eq_some_iff.mp h
      exact ⟨hk, .inl ht⟩
    · rename_i ht
      obtain ⟨v, -, rfl⟩ := Option.map_eq_some_iff.mp h
      exact ⟨hk, .inr ht⟩
    · cases h

/-- The control that is picked by a name is the first to post under it, if it posts what is written
into it. -/
theorem field?_collect_writeValue (value : String)
    (hfield : d.namedControl? form name = some field) (h : d.PostsWritten field) :
    ((d.writeValue field value).collect form).field? name = some value := by
  obtain ⟨hcontrol, pre, post, hsplit, hpre⟩ := List.find?_eq_some_iff_append.mp hfield
  have hname : d.attribute? field "name" = some name := by
    simp only [Bool.and_eq_true, decide_eq_true_eq] at hcontrol; exact hcontrol.2
  have hne : (d.attribute? field "name").filter (· ≠ "") = some name := by
    have hsome := h.2.1
    rw [hname] at hsome ⊢
    rw [Option.isSome_filter] at hsome
    simpa using hsome
  have hpost : (d.writeValue field value).postedPair? field = some (name, value) := by
    rw [postedPair?, attribute?_writeValue (k := "name") (.inr (by decide)), hne, tag?_writeValue,
      h.1]
    simp only [inputValue?_writeValue_self h, Option.map_some]
  have hnone : (pre.filterMap (d.writeValue field value).postedPair?).find?
      (fun p => p.1 = name) = none := by
    refine List.find?_eq_none.mpr fun p hp hpn => ?_
    obtain ⟨k, hk, hkp⟩ := List.mem_filterMap.mp hp
    obtain ⟨hkname, hktag⟩ := name_of_postedPair hkp
    rw [attribute?_writeValue (k := "name") (.inr (by decide)), of_decide_eq_true hpn] at hkname
    rw [tag?_writeValue] at hktag
    have hno := hpre k hk
    rcases hktag with hktag | hktag <;> simp [hktag, hkname] at hno
  rw [Submission.field?, collect, descendants_writeValue, hsplit, List.filterMap_append,
    List.find?_append, hnone, List.filterMap_cons_some hpost]
  simp

theorem collect_writeValue_of_not (hoption : d.tag? field ≠ some .option)
    (h : ¬ d.PostsWritten field) : (d.writeValue field value).collect form = d.collect form := by
  rw [collect, collect, attribute?_writeValue (k := "action") (.inr (by decide)),
    attribute?_writeValue (k := "method") (.inr (by decide)), descendants_writeValue]
  congr 2
  funext m
  exact postedPair?_writeValue hoption (.inr h)

theorem tag?_namedControl (h : d.namedControl? form name = some field) :
    d.tag? field = some .input ∨ d.tag? field = some .button ∨ d.tag? field = some .select := by
  have hc := List.find?_some h
  simp only [Bool.and_eq_true, Bool.or_eq_true, decide_eq_true_eq] at hc
  tauto

end Document

/-! ### Requests -/

namespace Request

open Document

variable {d : Document} {control form field : NodeId} {fieldName : String}

/-- A request whose form and field are found writes the intent, asks, and sends if it may. -/
theorem send_of_found (hform : d.nearestAbove? (some control) .form = some form)
    (hfield : d.namedControl? form fieldName = some field) (value : String)
    (confirm : String → Bool) :
    send d control value fieldName confirm =
      let written := d.writeValue field (Intent.text ⟨(d.attribute? control "name").getD "", value⟩)
      let label := written.valueOrText control
      if confirm label then
        ({ outcome := .submitted, prompts := [label],
            submissions := [written.collect form] }, written)
      else ({ outcome := .declined, prompts := [label] }, written) := by
  have hset : ∀ written, d.edit (Document.setAttribute field "value" written) =
      (.ok (), d.writeValue field written) := by
    intro written
    rcases tag?_namedControl hfield with ht | ht | ht
    · exact edit_setAttribute ht (by decide) _ _
    · exact edit_setAttribute ht (by decide) _ _
    · exact edit_setAttribute ht (by decide) _ _
  simp only [send, hform, hfield, hset]

/-- A submitted form carries the written text under the name of the request field if the picked
control is an input that posts what is written into it, and the text is read back as the intent of
the asking control exactly if the name of that control has no colon. If the picked control is no
such input, the form is sent as it was before the request, with whatever its other controls post
under that name. -/
theorem submission_of_submitted (d : Document) (control : NodeId) (value fieldName : String)
    (confirm : String → Bool)
    (h : (send d control value fieldName confirm).1.outcome = .submitted) :
    ∃ form field s, d.nearestAbove? (some control) .form = some form ∧
      d.namedControl? form fieldName = some field ∧
      (send d control value fieldName confirm).1.submissions = [s] ∧
      (d.PostsWritten field →
        s.field? fieldName = some (Intent.text ⟨(d.attribute? control "name").getD "", value⟩) ∧
        (s.intent? fieldName = some ⟨(d.attribute? control "name").getD "", value⟩ ↔
          ':' ∉ ((d.attribute? control "name").getD "").toList)) ∧
      (¬ d.PostsWritten field → s = d.collect form) := by
  cases hform : d.nearestAbove? (some control) .form with
  | none => simp [send, hform] at h
  | some form =>
    cases hfield : d.namedControl? form fieldName with
    | none => simp [send, hform, hfield] at h
    | some field =>
      rw [send_of_found hform hfield] at h ⊢
      simp only at h ⊢
      split at h
      · rename_i hyes
        rw [if_pos hyes]
        refine ⟨form, field, _, rfl, hfield, rfl, fun hposts => ?_, fun hposts => ?_⟩
        · have hvalue := field?_collect_writeValue
            (Intent.text ⟨(d.attribute? control "name").getD "", value⟩) hfield hposts
          refine ⟨hvalue, ?_⟩
          rw [Submission.intent?, hvalue]
          exact Intent.ofText?_text_iff _
        · refine collect_writeValue_of_not (fun ht => ?_) hposts
          rcases tag?_namedControl hfield with ht' | ht' | ht' <;> rw [ht] at ht' <;> cases ht'
      · cases h

/-- A form with a request field and a button that asks. -/
def inputForm : Document :=
  after ([.createElement .form, .createElement .input, .setAttribute 3 "name" "r",
    .createElement .button, .setAttribute 4 "name" "Save", .appendChild body 2, .appendChild 2 3,
    .appendChild 2 4].map .call)

theorem submission_of_inputForm :
    ∃ s, (send inputForm 4 "v" "r" fun _ => true).1.submissions = [s] ∧
      s.intent? "r" = some ⟨"Save", "v"⟩ := by
  obtain ⟨form, field, s, hform, hfield, hs, hposts, -⟩ :=
    submission_of_submitted inputForm 4 "v" "r" (fun _ => true) (by decide +kernel)
  have h2 : inputForm.nearestAbove? (some 4) .form = some 2 := by decide +kernel
  have h3 : inputForm.namedControl? 2 "r" = some 3 := by decide +kernel
  cases h2.symm.trans hform
  cases h3.symm.trans hfield
  exact ⟨s, hs, (hposts (by decide +kernel)).2.mpr (by decide +kernel)⟩

/-- A form whose only control is a button that bears the name of the request field. -/
def buttonForm : Document :=
  after ([.createElement .form, .createElement .button, .setAttribute 3 "name" "r",
    .appendChild body 2, .appendChild 2 3].map .call)

/-- A submitted form need not carry the intent of the asking control: the named lookup also picks a
button, and a button is never posted. -/
theorem submitted_without_intent :
    ¬ ∀ (d : Document) (control : NodeId) (value fieldName : String) (confirm : String → Bool),
      Reachable d → (send d control value fieldName confirm).1.outcome = .submitted →
        ∀ s ∈ (send d control value fieldName confirm).1.submissions,
          s.intent? fieldName = some ⟨(d.attribute? control "name").getD "", value⟩ := by
  intro h
  have hs := h buttonForm 3 "v" "r" (fun _ => true) ⟨_, rfl⟩ (by decide +kernel)
    { action := none, method := none, fields := [] } (by decide +kernel)
  cases hs

end Request

end FormPage
