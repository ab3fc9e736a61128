import FormPage.Page.Basic
import FormPage.Proofs.Document.Reachable

/-!
Where an event is handled. Of the nodes from a target upwards that have an action for an event, the
nearest handles it (`Handles`), and the search for it finds exactly that one; every node between the
target and it is a target with the same answer. Main statement: an event that no node on the way up
handles changes nothing, and any other does at every node of that way what it does at the node that
handles it.
-/

namespace FormPage.Page

open Document

variable {p : Page} {event : Event} {n m c c' : NodeId} {a a' : Action}

/-- Of the nodes from `n` upwards that have an action for an event, `c` is the nearest, and `a` is
its action. -/
structure Handles (p : Page) (event : Event) (n c : NodeId) (a : Action) : Prop where
  above : p.document.AtOrAbove c n
  bound : p.bindings.action? c event = some a
  nearest : ∀ m b, p.document.AtOrAbove m n → p.bindings.action? m event = some b →
    p.document.AtOrAbove m c

/-- The node that handles an event at a target also handles it at every node on the way. -/
theorem Handles.between (h : p.Handles event n c a) (hm : p.document.AtOrAbove m n)
    (hc : p.document.AtOrAbove c m) : p.Handles event m c a where
  above := hc
  bound := h.bound
  nearest k b hk := h.nearest k b (hm.trans hk)

/-- At most one node handles an event, and with one action. -/
theorem Handles.unique (hd : p.document.WellFormed) (h : p.Handles event n c a)
    (h' : p.Handles event n c' a') : c' = c ∧ a' = a := by
  obtain rfl : c' = c :=
    hd.acyclic.antisymm (h'.nearest c a h.above h.bound) (h.nearest c' a' h'.above h'.bound)
  exact ⟨rfl, Option.some.inj (h'.bound.symm.trans h.bound)⟩

/-! ### The search -/

/-- The search asks a node, and goes on at its parent if the node has no action. -/
theorem handler?_eq (hd : p.document.WellFormed) (n : NodeId) (event : Event) :
    p.handler? n event = ((p.bindings.action? n event).map (n, ·)).or
      ((p.document.parent? n).bind fun m => p.handler? m event) := by
  rw [handler?, inclusiveAncestors, path_some hd.acyclic, List.findSome?_cons]
  cases p.bindings.action? n event with
  | some a => rfl
  | none =>
    cases p.document.parent? n with
    | some m => rfl
    | none => rw [path_none]; rfl

/-- What the search finds handles the event. -/
theorem handles_of_handler? (hd : p.document.WellFormed) : ∀ n,
    p.handler? n event = some (c, a) → p.Handles event n c a := by
  refine step_induction hd.acyclic fun n ih h => ?_
  rw [handler?_eq hd] at h
  cases hn : p.bindings.action? n event with
  | some b =>
    rw [hn] at h
    obtain ⟨rfl, rfl⟩ := Prod.mk.inj (Option.some.inj h)
    exact ⟨.refl, hn, fun _ _ hm _ => hm⟩
  | none =>
    rw [hn] at h
    obtain ⟨k, hk, hrest⟩ := Option.bind_eq_some_iff.mp h
    have hhandles := ih k hk hrest
    refine ⟨.head hk hhandles.above, hhandles.bound, fun m b hm hb => ?_⟩
    -- the node itself has no action, so that `m` lies at or above the parent
    rcases hm.cases_head with rfl | ⟨k', hk', hm⟩
    · rw [hn] at hb
      cases hb
    · rw [step_unique hk' hk] at hm
      exact hhandles.nearest m b hm hb

/-- The search finds nothing exactly if no node on the way up has an action. -/
theorem handler?_eq_none_iff (hd : p.document.WellFormed) : p.handler? n event = none ↔
    ∀ m, p.document.AtOrAbove m n → p.bindings.action? m event = none := by
  simp only [handler?, List.findSome?_eq_none_iff, hd.mem_inclusiveAncestors,
    Option.map_eq_none_iff]

/-- The search finds exactly the node that handles the event. -/
theorem handler?_eq_some_iff (hd : p.document.WellFormed) :
    p.handler? n event = some (c, a) ↔ p.Handles event n c a := by
  refine ⟨handles_of_handler? hd n, fun h => ?_⟩
  cases hfound : p.handler? n event with
  | none =>
    have hnone := (handler?_eq_none_iff hd).mp hfound c h.above
    rw [h.bound] at hnone
    cases hnone
  | some found =>
    obtain ⟨rfl, rfl⟩ := h.unique hd (handles_of_handler? hd n hfound)
    rfl

/-- An event does what its action does at the node that handles it. -/
theorem Handles.react_eq (hd : p.document.WellFormed) (h : p.Handles event n c a)
    (confirm : String → Bool) : p.react n event confirm = p.run c confirm a := by
  rw [react, (handler?_eq_some_iff hd).mpr h]

/-- On a page with any handlers and any document that operations can lead to: if no node from the
target upwards has an action for an event, the event is ignored, nobody is asked, nothing is sent
and the page stays as it is. Otherwise exactly one node, the nearest, handles the event, and the
event has the same outcome, questions, submissions and page at every node from the target up to that
one: those of the action, run there. -/
theorem react_bubbles (hd : Reachable p.document) (target : NodeId) (event : Event)
    (confirm : String → Bool) :
    ((∀ m, p.document.AtOrAbove m target → p.bindings.action? m event = none) →
      p.react target event confirm =
        ({ outcome := .ignored, prompts := [], submissions := [] }, p)) ∧
    ((∃ m b, p.document.AtOrAbove m target ∧ p.bindings.action? m event = some b) →
      ∃ c a, p.Handles event target c a ∧
        (∀ c' a', p.Handles event target c' a' → c' = c ∧ a' = a) ∧
        p.react c event confirm = p.run c confirm a ∧
        ∀ m, p.document.AtOrAbove m target → p.document.AtOrAbove c m →
          p.react m event confirm = p.react c event confirm) := by
  have hwf := hd.wellFormed
  refine ⟨fun hnone => ?_, fun ⟨m, b, hm, hb⟩ => ?_⟩
  · rw [react, (handler?_eq_none_iff hwf).mpr hnone]
  · obtain ⟨⟨c, a⟩, hfound⟩ : ∃ found, p.handler? target event = some found := by
      refine Option.ne_none_iff_exists'.mp fun hnone => ?_
      rw [(handler?_eq_none_iff hwf).mp hnone m hm] at hb
      cases hb
    have hhandles := handles_of_handler? hwf target hfound
    have hat := (hhandles.between hhandles.above .refl).react_eq hwf confirm
    refine ⟨c, a, hhandles, fun c' a' h' => hhandles.unique hwf h', hat, fun k hk hck => ?_⟩
    rw [(hhandles.between hk hck).react_eq hwf confirm, hat]

/-- A cell that explains itself, with an input below it, and a text below nothing. -/
def helpCell : Page where
  document := after ([.createElement .td, .createElement .input, .createText "loose",
    .appendChild body 2, .appendChild 2 3].map .call)
  bindings := (∅ : Bindings).bind 2 .mouseOver (.showHelp "Any name")

/-- Entering the input is entering its cell, and entering the text is ignored. -/
theorem react_helpCell : Reachable helpCell.document ∧
    helpCell.react 4 .mouseOver (fun _ => true) = ({ outcome := .ignored }, helpCell) ∧
    ∃ c a, helpCell.Handles .mouseOver 3 c a ∧
      ∀ m, helpCell.document.AtOrAbove m 3 → helpCell.document.AtOrAbove c m →
        helpCell.react m .mouseOver (fun _ => true) =
          helpCell.react c .mouseOver (fun _ => true) := by
  have hd : Reachable helpCell.document := ⟨_, rfl⟩
  have hcell : helpCell.document.parent? 3 = some 2 := by decide +kernel
  refine ⟨hd, (react_bubbles hd 4 .mouseOver fun _ => true).1 ?_, ?_⟩
  · refine (handler?_eq_none_iff hd.wellFormed).mp ?_
    decide +kernel
  · obtain ⟨c, a, hhandles, -, -, hsame⟩ := (react_bubbles hd 3 .mouseOver fun _ => true).2
      ⟨2, .showHelp "Any name", .single hcell, by decide +kernel⟩
    exact ⟨c, a, hhandles, hsame⟩

end FormPage.Page
