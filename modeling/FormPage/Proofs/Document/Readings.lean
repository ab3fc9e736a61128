import FormPage.Proofs.Document.Alike
import FormPage.Balloon.Basic
import FormPage.Markup.Render
import FormPage.Submission.Collect

/-!
What is read from documents that look alike. The walks over children, over all nodes below and over
siblings meet paired nodes in the same order, so that searches find paired nodes and collected
values are equal.
-/

namespace FormPage.Document

open Relation Relator

variable {d d' : Document} {n n' p c : NodeId} {w : NodeId → NodeId → Prop} {α : Type}

/-! ### Siblings -/

theorem preceding_append : ∀ {pre post : List NodeId}, c ∉ pre →
    preceding c (pre ++ c :: post) = pre.getLast?
  | [], [], _ => rfl
  | [], b :: post, _ => if_pos rfl
  | [a], post, h => by
    obtain ⟨hne, -⟩ := not_or.mp (mt List.mem_cons.mpr h)
    rw [List.singleton_append, preceding, if_neg (Ne.symm hne), if_pos rfl]; rfl
  | a :: b :: pre, post, h => by
    obtain ⟨hne, hpre⟩ := not_or.mp (mt List.mem_cons.mpr h)
    have hnb := (not_or.mp (mt List.mem_cons.mpr hpre)).1
    rw [List.cons_append, List.cons_append, preceding, if_neg (Ne.symm hne), if_neg (Ne.symm hnb),
      ← List.cons_append, preceding_append hpre, List.getLast?_cons_cons]

namespace WellFormed

variable (h : WellFormed d)
include h

theorem nextSibling?_of_children {pre post : List NodeId} (hc : d.children p = pre ++ c :: post) :
    d.nextSibling? c = post.head? := by
  have hmem : c ∈ d.children p := by rw [hc]; simp
  have hnd := h.nodup_children p
  rw [hc, List.nodup_append] at hnd
  rw [nextSibling?, (h.mem_children p c).mp hmem, Option.bind_some, hc]
  exact following_append fun hm => hnd.2.2 c hm c List.mem_cons_self rfl

theorem previousSibling?_of_children {pre post : List NodeId}
    (hc : d.children p = pre ++ c :: post) : d.previousSibling? c = pre.getLast? := by
  have hmem : c ∈ d.children p := by rw [hc]; simp
  have hnd := h.nodup_children p
  rw [hc, List.nodup_append] at hnd
  rw [previousSibling?, (h.mem_children p c).mp hmem, Option.bind_some, hc]
  exact preceding_append fun hm => hnd.2.2 c hm c List.mem_cons_self rfl

theorem length_children_le (p : NodeId) : (d.children p).length ≤ d.size := by
  have hsub : d.children p ⊆ List.range d.size := fun c hc =>
    List.mem_range.mpr (h.child_lt p c hc)
  simpa using ((h.nodup_children p).subperm hsub).length_le

/-- Next siblings lead through the children behind a place. -/
theorem trail_nextSibling {pre post : List NodeId} (hc : d.children p = pre ++ post) :
    Trail d.nextSibling? post.head? post := by
  induction post generalizing pre with
  | nil => exact .stop
  | cons c post ih =>
    have hc' : d.children p = (pre ++ [c]) ++ post := by simpa using hc
    refine .step ?_
    rw [h.nextSibling?_of_children hc]
    exact ih hc'

/-- Previous siblings lead through the children in front of a place, last first. -/
theorem trail_previousSibling {pre post : List NodeId} (hc : d.children p = pre.reverse ++ post) :
    Trail d.previousSibling? pre.head? pre := by
  induction pre generalizing post with
  | nil => exact .stop
  | cons c pre ih =>
    have hc' : d.children p = pre.reverse ++ c :: post := by simpa using hc
    refine .step ?_
    rw [h.previousSibling?_of_children hc', List.getLast?_reverse]
    exact ih hc'

/-- The path over next siblings lists the children behind a place. -/
theorem path_nextSibling {pre post : List NodeId} (hc : d.children p = pre ++ post) :
    d.path d.nextSibling? post.head? = post := by
  have hlen := h.length_children_le p
  rw [hc, List.length_append] at hlen
  exact (h.trail_nextSibling hc).path_eq (by omega)

/-- The path over previous siblings lists the children in front of a place, last first. -/
theorem path_previousSibling {pre post : List NodeId} (hc : d.children p = pre ++ post) :
    d.path d.previousSibling? pre.getLast? = pre.reverse := by
  have hlen := h.length_children_le p
  have hrev : d.children p = pre.reverse.reverse ++ post := by rwa [List.reverse_reverse]
  rw [hc, List.length_append] at hlen
  rw [List.getLast?_eq_head?_reverse]
  refine (h.trail_previousSibling hrev).path_eq ?_
  rw [List.length_reverse]
  omega

theorem path_nextSibling_of_children {pre post : List NodeId}
    (hc : d.children p = pre ++ c :: post) : d.path d.nextSibling? (some c) = c :: post :=
  h.path_nextSibling hc

theorem path_previousSibling_of_children {pre post : List NodeId}
    (hc : d.children p = pre ++ c :: post) :
    d.path d.previousSibling? (some c) = c :: pre.reverse := by
  have hc' : d.children p = (pre ++ [c]) ++ post := by simpa using hc
  simpa using h.path_previousSibling hc'

/-! ### Searches among siblings -/

/-- The first child with a tag. -/
theorem firstChildTagged?_eq (p : NodeId) (tag : Tag) :
    d.firstChildTagged? (some p) tag = d.firstTagged tag (d.children p) := by
  have hc : d.children p = [] ++ d.children p := rfl
  rw [firstChildTagged?, Option.bind_some, firstChild?, nearestAfter?, h.path_nextSibling hc]

/-- The nearest node with a tag among the later siblings. -/
theorem nearestAfter?_nextSibling {pre post : List NodeId}
    (hc : d.children p = pre ++ c :: post) (tag : Tag) :
    d.nearestAfter? (d.nextSibling? c) tag = d.firstTagged tag post := by
  have hc' : d.children p = (pre ++ [c]) ++ post := by simpa using hc
  rw [h.nextSibling?_of_children hc, nearestAfter?, h.path_nextSibling hc']

/-- The nearest node with a tag among the earlier siblings. -/
theorem nearestBefore?_previousSibling {pre post : List NodeId}
    (hc : d.children p = pre ++ c :: post) (tag : Tag) :
    d.nearestBefore? (d.previousSibling? c) tag = d.firstTagged tag pre.reverse := by
  rw [h.previousSibling?_of_children hc, nearestBefore?, h.path_previousSibling hc]

end WellFormed

theorem path_nextSibling_of_top (h : d.parent? c = none) :
    d.path d.nextSibling? (some c) = [c] := by
  rw [path, follow, nextSibling?, h, Option.bind_none, follow_none]

theorem path_previousSibling_of_top (h : d.parent? c = none) :
    d.path d.previousSibling? (some c) = [c] := by
  rw [path, follow, previousSibling?, h, Option.bind_none, follow_none]

theorem split_rel {β : Type} {r : α → β → Prop} {a : α} {post : List α} :
    ∀ {pre : List α} {l : List β}, List.Forall₂ r (pre ++ a :: post) l →
      ∃ pre' b post', l = pre' ++ b :: post' ∧ List.Forall₂ r pre pre' ∧ r a b ∧
        List.Forall₂ r post post'
  | [], _, .cons hab hpost => ⟨[], _, _, rfl, .nil, hab, hpost⟩
  | x :: pre, _, .cons hx hrest => by
    obtain ⟨pre', b, post', hl, hpre, hab, hpost⟩ := split_rel hrest
    exact ⟨_ :: pre', b, post', by rw [hl]; rfl, .cons hx hpre, hab, hpost⟩

/-! ### Readings -/

namespace Alike

variable (h : Alike w d d')
include h

theorem tag? (hn : w n n') : d.tag? n = d'.tag? n' := by
  rw [tag?_eq_face, tag?_eq_face, h.face n n' hn]

theorem attribute? (hn : w n n') (name : String) : d.attribute? n name = d'.attribute? n' name := by
  rw [attribute?_eq_face, attribute?_eq_face, h.face n n' hn]

theorem box (hn : w n n') : d.box n = d'.box n' := by
  rw [Document.box, Document.box, geometry?_eq_face, geometry?_eq_face, h.face n n' hn]

theorem hasClass (hn : w n n') (cssClass : String) :
    Balloon.hasClass d n cssClass = Balloon.hasClass d' n' cssClass := by
  rw [Balloon.hasClass, Balloon.hasClass, h.attribute? hn]

theorem lt_size' (hn : w n n') : n' < d'.size := by
  have hlt := h.lt_size n n' hn
  rw [← contains_iff, contains_eq_face, h.face n n' hn, ← contains_eq_face, contains_iff] at hlt
  exact hlt

theorem firstChild? (hn : w n n') : Option.Rel w (d.firstChild? n) (d'.firstChild? n') :=
  head?_rel (h.children n n' hn)

theorem firstTagged {ns ns' : List NodeId} (hns : List.Forall₂ w ns ns') (tag : Tag) :
    Option.Rel w (d.firstTagged tag ns) (d'.firstTagged tag ns') :=
  find?_rel hns fun a b hab => by rw [h.tag? hab]

variable (hd : WellFormed d) (hd' : WellFormed d')
include hd hd'

theorem preorder (hn : w n n') : List.Forall₂ w (d.preorder n) (d'.preorder n') := by
  induction n using hd.below_induction generalizing n' with
  | hP n ih =>
    rw [hd.preorder_of_lt (h.lt_size n n' hn), hd'.preorder_of_lt (h.lt_size' hn)]
    exact .cons hn (flatMap_rel (h.children n n' hn) fun c hc c' hcc => ih c hc hcc)

theorem descendants (hn : w n n') : List.Forall₂ w (d.descendants n) (d'.descendants n') := by
  rw [hd.descendants_eq, hd'.descendants_eq]
  exact flatMap_rel (h.children n n' hn) fun c _ c' hcc => h.preorder hd hd' hcc

/-- A fold that sees only what nodes show is the same. -/
theorem fold {step step' : NodeId → Node → List α → α} {missing : α}
    (hstep : ∀ n n' x x' l, w n n' → x.face = x'.face → step n x l = step' n' x' l)
    (hn : w n n') : d.fold step missing n = d'.fold step' missing n' := by
  induction n using hd.below_induction generalizing n' with
  | hP n ih =>
    obtain ⟨x, hx⟩ := exists_node (h.lt_size n n' hn)
    obtain ⟨x', hx'⟩ := exists_node (h.lt_size' hn)
    have hface := h.face n n' hn
    rw [face?_of_node hx, face?_of_node hx', Option.some.injEq] at hface
    rw [hd.fold_of_node hx, hd'.fold_of_node hx', hstep n n' x x' _ hn hface,
      map_eq_of_rel (h.children n n' hn) fun c hc c' hcc => ih c hc hcc]

theorem textContent (hn : w n n') : d.textContent n = d'.textContent n' := by
  rw [Document.textContent, Document.textContent]
  refine congrArg String.ofList (h.fold hd hd' (fun _ _ x x' l _ hface => ?_) hn)
  obtain ⟨htag, -, htext, -, -⟩ := Node.eq_of_face hface
  rw [htag, htext]

theorem markup (hn : w n n') : Markup.render d n = Markup.render d' n' := by
  rw [Markup.render, Markup.render, Markup.chars, Markup.chars]
  refine congrArg String.ofList (h.fold hd hd' (fun _ _ x x' l _ hface => ?_) hn)
  obtain ⟨htag, hattributes, htext, hstyle, -⟩ := Node.eq_of_face hface
  rw [Markup.element, Markup.element, Markup.attributes, Markup.attributes, htag, hattributes,
    htext, hstyle]

theorem elementById? (id : String) :
    Option.Rel w (d.elementById? id) (d'.elementById? id) :=
  find?_rel (h.descendants hd hd' h.root) fun a b hab => by rw [h.attribute? hab]

/-! ### Forms -/

theorem namedControl? (hn : w n n') (name : String) :
    Option.Rel w (d.namedControl? n name) (d'.namedControl? n' name) :=
  find?_rel (h.descendants hd hd' hn) fun a b hab => by
    rw [h.tag? hab, h.attribute? hab]

theorem valueOrText (hn : w n n') : d.valueOrText n = d'.valueOrText n' := by
  rw [Document.valueOrText, Document.valueOrText, h.attribute? hn, h.textContent hd hd' hn]

omit hd hd' in
theorem inputValue? (hn : w n n') : d.inputValue? n = d'.inputValue? n' := by
  rw [Document.inputValue?, Document.inputValue?, h.attribute? hn, h.attribute? hn,
    h.attribute? hn]

theorem selectValue? (hn : w n n') : d.selectValue? n = d'.selectValue? n' := by
  have hoptions : List.Forall₂ w ((d.descendants n).filter fun m => d.tag? m = some .option)
      ((d'.descendants n').filter fun m => d'.tag? m = some .option) :=
    List.rel_filter (fun a b hab => by simp [h.tag? hab]) (h.descendants hd hd' hn)
  have hselected := find?_rel (P := fun m => (d.attribute? m "selected").isSome)
    (Q := fun m => (d'.attribute? m "selected").isSome) hoptions fun a b hab => by
      rw [h.attribute? hab]
  have hfirst := head?_rel hoptions
  rw [Document.selectValue?, Document.selectValue?]
  revert hselected hfirst
  generalize List.find? _ _ = s, List.find? _ _ = s', List.head? _ = f, List.head? _ = f'
  intro hselected hfirst
  cases hselected with
  | some hab => simp [h.valueOrText hd hd' hab]
  | none =>
    cases hfirst with
    | some hab => simp [h.valueOrText hd hd' hab]
    | none => rfl

theorem postedPair? (hn : w n n') : d.postedPair? n = d'.postedPair? n' := by
  rw [Document.postedPair?, Document.postedPair?, h.attribute? hn, h.tag? hn,
    h.inputValue? hn, h.selectValue? hd hd' hn]

theorem collect (hn : w n n') : d.collect n = d'.collect n' := by
  rw [Document.collect, Document.collect, h.attribute? hn, h.attribute? hn,
    filterMap_eq_of_rel (h.descendants hd hd' hn) fun a b hab => h.postedPair? hd hd' hab]

/-! ### Nearest matches -/

omit hd' in
/-- The siblings of paired nodes are paired. -/
theorem siblings_rel (hn : w n n') : (d.parent? n = none ∧ d'.parent? n' = none) ∨
    ∃ q q' pre post pre' post', d.children q = pre ++ n :: post ∧
      d'.children q' = pre' ++ n' :: post' ∧ List.Forall₂ w pre pre' ∧
      List.Forall₂ w post post' := by
  have hp := h.parent n n' hn
  generalize hs : d.parent? n = s at hp
  generalize hs' : d'.parent? n' = s' at hp
  cases hp with
  | none => exact .inl ⟨rfl, rfl⟩
  | @some q q' hq =>
    obtain ⟨pre, post, hc⟩ := List.append_of_mem ((hd.mem_children q n).mpr hs)
    have hrel := h.children q q' hq
    rw [hc] at hrel
    obtain ⟨pre', b, post', hc', hpre, hb, hpost⟩ := split_rel hrel
    obtain rfl := h.unique.2 hn hb
    exact .inr ⟨q, q', pre, post, pre', post', hc, hc', hpre, hpost⟩

theorem nextSibling? (hn : w n n') : Option.Rel w (d.nextSibling? n) (d'.nextSibling? n') := by
  rcases h.siblings_rel hd hn with ⟨hp, hp'⟩ | ⟨q, q', pre, post, pre', post', hc, hc', -, hpost⟩
  · rw [Document.nextSibling?, Document.nextSibling?, hp, hp']; exact .none
  · rw [hd.nextSibling?_of_children hc, hd'.nextSibling?_of_children hc']
    exact head?_rel hpost

theorem previousSibling? (hn : w n n') :
    Option.Rel w (d.previousSibling? n) (d'.previousSibling? n') := by
  rcases h.siblings_rel hd hn with ⟨hp, hp'⟩ | ⟨q, q', pre, post, pre', post', hc, hc', hpre, -⟩
  · rw [Document.previousSibling?, Document.previousSibling?, hp, hp']; exact .none
  · rw [hd.previousSibling?_of_children hc, hd'.previousSibling?_of_children hc',
      List.getLast?_eq_head?_reverse, List.getLast?_eq_head?_reverse]
    exact head?_rel (List.rel_reverse hpre)

variable {s s' : Option NodeId}

theorem path_nextSibling (hs : Option.Rel w s s') :
    List.Forall₂ w (d.path d.nextSibling? s) (d'.path d'.nextSibling? s') := by
  cases hs with
  | none => rw [path_none, path_none]; exact .nil
  | some hn =>
    rcases h.siblings_rel hd hn with ⟨hp, hp'⟩ | ⟨q, q', pre, post, pre', post', hc, hc', -, hpost⟩
    · rw [path_nextSibling_of_top hp, path_nextSibling_of_top hp']
      exact .cons hn .nil
    · rw [hd.path_nextSibling_of_children hc, hd'.path_nextSibling_of_children hc']
      exact .cons hn hpost

theorem path_previousSibling (hs : Option.Rel w s s') :
    List.Forall₂ w (d.path d.previousSibling? s) (d'.path d'.previousSibling? s') := by
  cases hs with
  | none => rw [path_none, path_none]; exact .nil
  | some hn =>
    rcases h.siblings_rel hd hn with ⟨hp, hp'⟩ | ⟨q, q', pre, post, pre', post', hc, hc', hpre, -⟩
    · rw [path_previousSibling_of_top hp, path_previousSibling_of_top hp']
      exact .cons hn .nil
    · rw [hd.path_previousSibling_of_children hc, hd'.path_previousSibling_of_children hc']
      exact .cons hn (List.rel_reverse hpre)

theorem nearestBefore? (hs : Option.Rel w s s') (tag : Tag) :
    Option.Rel w (d.nearestBefore? s tag) (d'.nearestBefore? s' tag) :=
  h.firstTagged (h.path_previousSibling hd hd' hs) tag

theorem nearestAfter? (hs : Option.Rel w s s') (tag : Tag) :
    Option.Rel w (d.nearestAfter? s tag) (d'.nearestAfter? s' tag) :=
  h.firstTagged (h.path_nextSibling hd hd' hs) tag

theorem firstChildTagged? (hs : Option.Rel w s s') (tag : Tag) :
    Option.Rel w (d.firstChildTagged? s tag) (d'.firstChildTagged? s' tag) := by
  refine h.nearestAfter? hd hd' ?_ tag
  cases hs with
  | none => exact .none
  | some hn => exact h.firstChild? hn

end Alike

end FormPage.Document
