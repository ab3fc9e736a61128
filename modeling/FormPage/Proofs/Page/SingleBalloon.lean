import FormPage.Proofs.Page.Built
import FormPage.Proofs.Page.Reload
import FormPage.Proofs.Page.Steady

/-!
How many attached elements carry the reserved id. A page that was described with at most one of them
keeps that, whatever happens to it, with one exception (`single_balloon_after`): where the described
one is an input, which can hold no text, the page builds a balloon of its own beside it as soon as
help is shown, and from then on there are two.
-/

namespace FormPage

open Document Balloon Relation
open NodeSpec (elements normalAll flatAll)

variable {d d' : Document} {b : Balloon} {p : Page} {spec : PageSpec} {n m : NodeId} {id : String}
  {ss : List NodeSpec}

namespace Document

/-- At most one attached node carries an id. -/
def CarriedOnce (d : Document) (id : String) : Prop :=
  ∀ n m, d.AtOrAbove root n → d.AtOrAbove root m → d.attribute? n "id" = some id →
    d.attribute? m "id" = some id → n = m

/-! ### Loaded documents -/

theorem eq_of_countP_le_one {α : Type} {P : α → Bool} : ∀ {l : List α} {i j : Nat} {x y : α},
    l.countP P ≤ 1 → l[i]? = some x → P x = true → l[j]? = some y → P y = true → i = j
  | [], _, _, _, _, _, hx, _, _, _ => by cases hx
  | a :: l, i, j, x, y, hone, hx, hPx, hy, hPy => by
    -- one match at the head leaves none in the rest
    have hrest : P a = true → ∀ k z, l[k]? = some z → P z ≠ true := fun ha k z hz hPz => by
      rw [List.countP_cons_of_pos ha] at hone
      have hpos : 0 < l.countP P := List.countP_pos_iff.mpr ⟨z, List.mem_of_getElem? hz, hPz⟩
      omega
    have hle : l.countP P ≤ 1 := Nat.le_trans (List.sublist_cons_self a l).countP_le hone
    rcases i with _ | i <;> rcases j with _ | j
    · rfl
    · cases hx
      exact absurd hPy (hrest hPx j y hy)
    · cases hy
      exact absurd hPx (hrest hPy i x hx)
    · exact congrArg _ (eq_of_countP_le_one hle hx hPx hy hPy)

/-- A document loaded from descriptions with at most one element that carries the id. -/
theorem loaded_unique (h : ∀ x ∈ flatAll ss, x.Holds)
    (hone : ((elements ss).countP fun e => e.2.get? "id" = some id) ≤ 1)
    (hn : (Document.loaded (normalAll ss)).attribute? n "id" = some id)
    (hm : (Document.loaded (normalAll ss)).attribute? m "id" = some id) : n = m := by
  obtain ⟨i, s, rfl, hs, hstext, hsid⟩ := (attribute?_loaded_iff h n).mp hn
  obtain ⟨j, t, rfl, ht, httext, htid⟩ := (attribute?_loaded_iff h m).mp hm
  rw [← NodeSpec.elements_normalAll, elements, List.countP_filterMap] at hone
  refine congrArg (2 + ·) (eq_of_countP_le_one hone hs ?_ ht ?_)
  · rw [NodeSpec.element?, if_neg hstext]
    exact decide_eq_true hsid
  · rw [NodeSpec.element?, if_neg httext]
    exact decide_eq_true htid

/-- Every element that is described with the id is loaded. -/
theorem exists_loaded (h : ∀ x ∈ flatAll ss, x.Holds) {e : Tag × OrderedMap String String}
    (he : e ∈ elements ss) (hid : e.2.get? "id" = some id) :
    ∃ n, (Document.loaded (normalAll ss)).attribute? n "id" = some id ∧
      (Document.loaded (normalAll ss)).tag? n = some e.1 := by
  obtain ⟨s, hs, htext, rfl⟩ :=
    NodeSpec.exists_of_mem_elements (NodeSpec.elements_normalAll ss ▸ he)
  obtain ⟨i, hi⟩ := List.getElem?_of_mem hs
  refine ⟨2 + i, (attribute?_loaded_iff h _).mpr ⟨i, s, rfl, hi, htext, hid⟩, ?_⟩
  rw [tag?_eq_face, face?_loaded_new, hi]
  rfl

/-- A void node with the id was described as an input with the id. -/
theorem exists_described_input (h : ∀ x ∈ flatAll ss, x.Holds) {t : Tag}
    (hn : (Document.loaded (normalAll ss)).attribute? n "id" = some id)
    (ht : (Document.loaded (normalAll ss)).tag? n = some t) (hv : t.isVoid = true) :
    ∃ e ∈ elements ss, e.2.get? "id" = some id ∧ e.1 = .input := by
  obtain ⟨i, s, rfl, hs, htext, hid⟩ := (attribute?_loaded_iff h n).mp hn
  rw [tag?_eq_face, face?_loaded_new, hs] at ht
  obtain rfl : s.tag = t := Option.some.inj ht
  refine ⟨(s.tag, s.attributes), NodeSpec.elements_normalAll ss ▸
    NodeSpec.mem_elements (List.mem_of_getElem? hs) htext, hid, ?_⟩
  revert hv htext
  cases s.tag <;> simp [Tag.isVoid]

/-! ### Looking for the balloon -/

/-- The void nodes that carry an id. -/
def VoidCarrier (d : Document) (id : String) (n : NodeId) : Prop :=
  d.attribute? n "id" = some id ∧ ∃ t, d.tag? n = some t ∧ t.isVoid = true

theorem attribute?_of_elementById (h : d.elementById? id = some n) :
    d.attribute? n "id" = some id := by
  have hid := List.find?_some h
  exact of_decide_eq_true hid

/-- A search by an id finds one of the attached nodes that carry it. -/
theorem Framed.elementById?_ne_none (h : d.Framed) (hn : d.AtOrAbove root n)
    (hid : d.attribute? n "id" = some id) : d.elementById? id ≠ none := fun hnone => by
  have hroot : n ≠ root := by
    rintro rfl
    rw [attribute?_eq_face, h.root_face] at hid
    cases hid
  have habove := (reflTransGen_iff_eq_or_transGen.mp hn).resolve_left (Ne.symm hroot)
  have hnot := List.find?_eq_none.mp hnone n (h.wellFormed.mem_descendants.mpr habove)
  exact hnot (decide_eq_true hid)

section Adoption

variable {parts : Option BalloonParts} (h : d.Adoption id d' parts)
include h

/-- The search gives no attribute but a class to any node, and takes none. -/
theorem Adoption.attribute?_eq {k : String} (hk : k ≠ "class") (n : NodeId) :
    d'.attribute? n k = d.attribute? n k := by
  have hregion : ∀ s ∈ flatAll [regionSpec], s.attributes.get? k = none := by
    intro s hs
    obtain rfl := List.mem_singleton.mp (show s ∈ [regionSpec] from hs)
    rw [regionSpec, OrderedMap.get?_insert, if_neg hk]
    rfl
  by_cases hn : n < d.size
  · rw [attribute?_eq_face, attribute?_eq_face, (h.old hn).2.1]
  · have hge := Nat.le_of_not_lt hn
    have hnone : d.attribute? n k = none := by
      rw [attribute?, node?_eq_none_iff.mpr hge]
      rfl
    cases h with
    | absent | whole => rfl
    | extended => rw [hnone, graftLast, attribute?_graft_new hge hregion]
    | void =>
      rw [hnone, attribute?_lay_new hge fun s hs => hregion s (List.mem_append_left [] hs)]

theorem Adoption.found {q : BalloonParts} (hparts : parts = some q) :
    d.attribute? q.element "id" = some id := by
  cases h with
  | absent | void => cases hparts
  | whole hfound | extended hfound =>
    cases hparts
    exact attribute?_of_elementById hfound

/-- A search that comes back without nodes met no element with the id, or a void one. -/
theorem Adoption.void_of_none (hd : d.Framed) (hparts : parts = none) (hn : d.AtOrAbove root n)
    (hid : d.attribute? n "id" = some id) : ∃ e, d.VoidCarrier id e := by
  cases h with
  | absent hnone => exact absurd hnone (hd.elementById?_ne_none hn hid)
  | whole | extended => cases hparts
  | @void e t hfound ht hv => exact ⟨e, attribute?_of_elementById hfound, t, ht, hv⟩

variable (hone : ∀ n m, d.attribute? n "id" = some id → d.attribute? m "id" = some id → n = m)
include hone

/-- Right after the search, the id is the balloon's, but for a void node that may carry it. -/
theorem Adoption.marked (hd : d.Framed) (hattached : ∀ n < d.size, d.AtOrAbove root n)
    (hid : b.id = id) (hparts : b.parts = parts) : Marked (d.VoidCarrier id) d' b := by
  refine ⟨fun e he => ?_, fun n hn => ?_⟩
  · obtain ⟨q, hq, rfl⟩ := Option.map_eq_some_iff.mp he
    rw [h.attribute?_eq (by decide), hid, h.found (hparts.symm.trans hq)]
  · rw [h.attribute?_eq (by decide), hid] at hn
    obtain ⟨x, hx, -⟩ := Option.bind_eq_some_iff.mp hn
    cases hq : parts with
    | none =>
      obtain ⟨e, he⟩ := h.void_of_none hd hq (hattached n (lt_size_of_node hx)) hn
      exact .inl (hone e n he.1 hn ▸ he)
    | some q =>
      rw [element?, hparts, hq, Option.map_some, hone q.element n (h.found hq) hn]
      exact .inr rfl

/-- A void node that carries the id is not taken for the balloon. -/
theorem Adoption.parts_of_void (hd : d.Framed) (hn : d.VoidCarrier id n) : parts = none := by
  obtain ⟨hid, t, ht, hv⟩ := hn
  cases h with
  | absent | void => rfl
  | @whole e region hfound hregion =>
    obtain rfl := hone e n (attribute?_of_elementById hfound) hid
    rw [hd.wellFormed.void_empty e t ht hv] at hregion
    cases hregion
  | @extended e t' hfound ht' hv' =>
    obtain rfl := hone e n (attribute?_of_elementById hfound) hid
    obtain rfl := Option.some.inj (ht.symm.trans ht')
    rw [hv] at hv'
    cases hv'

end Adoption

end Document

namespace Page

section Described

variable (h : spec.build = .ok p)
  (hone : ((elements spec.body).countP fun e =>
    e.2.get? "id" = some spec.options.balloonId) ≤ 1) (es : List Delivery)
include h hone

/-- Whatever happened, the id is the balloon's, but for a void node that was loaded with it. -/
theorem marked_after : (p.after es).balloon.id = spec.options.balloonId ∧
    Marked ((Document.loaded (normalAll spec.body)).VoidCarrier spec.options.balloonId)
      (p.after es).document (p.after es).balloon := by
  have hleads := (after_leads es (PageSpec.settled_of_build h)).steps
  obtain ⟨hholds, -⟩ := PageSpec.of_build_ok h
  obtain ⟨hd, -, hid, hadoption⟩ := PageSpec.adoption_of_build h
  have hunique : ∀ n m, _ → _ → n = m := fun n m => loaded_unique hholds hone
  obtain ⟨parts, hmake⟩ := hleads.make
  exact ⟨by rw [hmake, ← hid],
    hleads.marked (hadoption.marked hunique hd (fun n => attached_loaded hd) hid rfl)⟩

/-- A void node that was loaded with the id keeps it, and stays attached outside of the balloon. -/
theorem outside_of_voidCarrier {c : NodeId}
    (hc : (Document.loaded (normalAll spec.body)).VoidCarrier spec.options.balloonId c) :
    (p.after es).document.attribute? c "id" = some spec.options.balloonId ∧
      (p.after es).document.Outside (p.after es).balloon.element? c := by
  have hsettled := PageSpec.settled_of_build h
  have hleads := (after_leads es hsettled).steps
  obtain ⟨hholds, -⟩ := PageSpec.of_build_ok h
  obtain ⟨hd, -, -, hadoption⟩ := PageSpec.adoption_of_build h
  have hparts := hadoption.parts_of_void (fun n m => loaded_unique hholds hone) hd hc
  obtain ⟨hcid, t, ht, -⟩ := hc
  have hlt := lt_size_of_tag ht
  have hsame := sameAbove_old hd.wellFormed fun _ hm => (hadoption.old hm).1
  -- right after loading the page has no balloon that the node could lie in
  have hout : p.document.Outside p.balloon.element? c := by
    refine ⟨hsame.atOrAbove hlt (attached_loaded hd hlt), ?_⟩
    rw [Balloon.element?, hparts]
    exact fun e he => by cases he
  refine ⟨?_, (course_after es hsettled).steady.outside c hout⟩
  rw [hleads.id_eq (hsettled.hosts.framed.lt_size hout.1), hadoption.attribute?_eq (by decide),
    hcid]

end Described

/-- Whatever happened to a page that was described with at most one element that carries the
reserved id: at most one attached node carries it, exactly if no input was described with it or the
page has no balloon yet. -/
theorem single_balloon_after (h : spec.build = .ok p)
    (hone : ((elements spec.body).countP fun e =>
      e.2.get? "id" = some spec.options.balloonId) ≤ 1) (es : List Delivery) :
    (p.after es).document.CarriedOnce spec.options.balloonId ↔
      (∀ e ∈ elements spec.body, e.2.get? "id" = some spec.options.balloonId → e.1 ≠ .input) ∨
        (p.after es).balloon.element? = none := by
  have hafter : (p.after es).Settled := (after_leads es (PageSpec.settled_of_build h)).settled
  obtain ⟨hid, hmarked⟩ := marked_after h hone es
  obtain ⟨hholds, -⟩ := PageSpec.of_build_ok h
  constructor
  · intro honce
    by_contra hnot
    simp only [not_or, not_forall, not_not] at hnot
    obtain ⟨⟨e, he, heid, hinput⟩, helement⟩ := hnot
    -- the described input and the element of the balloon both carry the id
    obtain ⟨c, hc, htag⟩ := exists_loaded hholds he heid
    obtain ⟨hcarries, hout⟩ :=
      outside_of_voidCarrier h hone es ⟨hc, .input, hinput ▸ htag, rfl⟩
    obtain ⟨k, hk⟩ := Option.ne_none_iff_exists'.mp helement
    obtain ⟨q, hq, rfl⟩ := Option.map_eq_some_iff.mp hk
    obtain rfl := honce q.element c (hafter.hosts.carries q hq).attached hout.1
      (hid ▸ hmarked.named _ hk) hcarries
    exact hout.2 _ hk .refl
  · rintro hcase n m - - hn hm
    have hn' := hmarked.only n (hid ▸ hn)
    have hm' := hmarked.only m (hid ▸ hm)
    rcases hcase with hinput | hnone
    · have hspare : ∀ n, ¬ (Document.loaded (normalAll spec.body)).VoidCarrier
          spec.options.balloonId n := by
        rintro n ⟨hc, t, ht, hv⟩
        obtain ⟨e, he, heid, hetag⟩ := exists_described_input hholds hc ht hv
        exact hinput e he heid hetag
      exact Option.some.inj ((hn'.resolve_left (hspare n)).symm.trans
        (hm'.resolve_left (hspare m)))
    · rw [hnone] at hn' hm'
      have hbare : ∀ {m : NodeId}, none ≠ some m := fun h => by cases h
      exact loaded_unique hholds hone (hn'.resolve_right hbare).1 (hm'.resolve_right hbare).1

/-- A page whose only element with the id is taken for the balloon keeps to that one. -/
theorem single_balloonPage : ∃ p, PageSpec.balloonPage.build = .ok p ∧
    (p.after balloonEvents).document.CarriedOnce "balloon_help" := by
  have hbuild : (PageSpec.balloonPage.build.toOption.map fun p => p.title) = some none := by
    decide +kernel
  obtain ⟨p, hp, -⟩ := PageSpec.exists_of_build hbuild
  have hafter := single_balloon_after hp (by decide) balloonEvents
  exact ⟨p, hp, hafter.mpr (.inl (by decide))⟩

/-- Showing help on a page where an input carries the id makes a second element that carries it. -/
theorem two_balloons_voidBalloon :
    ((elements PageSpec.voidBalloon.body).countP fun e =>
      e.2.get? "id" = some PageSpec.voidBalloon.options.balloonId) ≤ 1 ∧
    ∃ p, PageSpec.voidBalloon.build = .ok p ∧
      ¬ (p.after [⟨3, .mouseOver, fun _ => true⟩]).document.CarriedOnce
        PageSpec.voidBalloon.options.balloonId := by
  refine ⟨by decide, ?_⟩
  have hfacts : (PageSpec.voidBalloon.build.toOption.map fun p =>
      [2, 7].map fun n => ((p.after [⟨3, .mouseOver, fun _ => true⟩]).document.inclusiveAncestors n,
        (p.after [⟨3, .mouseOver, fun _ => true⟩]).document.attribute? n "id")) =
      some [([2, 1, 0], some "balloon_help"), ([7, 1, 0], some "balloon_help")] := by
    decide +kernel
  obtain ⟨p, hp, hfacts⟩ := PageSpec.exists_of_build hfacts
  simp only [List.map_cons, List.map_nil, List.cons.injEq, Prod.mk.injEq, and_true] at hfacts
  obtain ⟨⟨hinput, hinputId⟩, hbuilt, hbuiltId⟩ := hfacts
  have hwf := (after_leads [⟨3, .mouseOver, fun _ => true⟩]
    (PageSpec.settled_of_build hp)).settled.hosts.framed.wellFormed
  refine ⟨p, hp, fun honce => ?_⟩
  have hsame := honce 2 7 (hwf.mem_inclusiveAncestors.mp (by rw [hinput]; decide))
    (hwf.mem_inclusiveAncestors.mp (by rw [hbuilt]; decide)) hinputId hbuiltId
  cases hsame

end Page

end FormPage
