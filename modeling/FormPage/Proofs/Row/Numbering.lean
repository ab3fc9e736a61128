import FormPage.Proofs.Row.Site

/-!
How the numbering of rows goes on. The copied row shows an integer of any length, while a row's
number has 64 bits. Where the integer is one of these, the new row shows the next one, or there is
none, because it was the last. An integer beyond 64 bits is read as no number at all: the numbering
starts again at one (`numbering_of_shown`).
-/

namespace FormPage.Row

open Document Relation

variable {d d' : Document} {control row : NodeId} {field : String} {number n : Int} {s : Site}

/-- A row shows a label: its first cell has that text. -/
def ShowsLabel (d : Document) (row : NodeId) (label : String) : Prop :=
  ∃ cell, d.firstTagged .td (d.children row) = some cell ∧ d.textContent cell = label

/-- Adding a row goes on behind a number: the new row shows the next one, or there is none and
nothing has changed. -/
def GoesOn (d : Document) (control : NodeId) (field : String) (n : Int) : Prop :=
  (∃ row d', add d control field = (some row, d') ∧
    ShowsLabel d' row (field ++ " " ++ Text.showInt (n + 1))) ∨
  add d control field = (none, d)

/-- A row shows one number behind a field. -/
theorem ShowsLabel.number_unique {number' : Int}
    (h : ShowsLabel d row (field ++ " " ++ Text.showInt number))
    (h' : ShowsLabel d row (field ++ " " ++ Text.showInt number')) : number = number' := by
  obtain ⟨cell, hcell, hlabel⟩ := h
  obtain ⟨cell', hcell', hlabel'⟩ := h'
  obtain rfl := Option.some.inj (hcell.symm.trans hcell')
  have hchars := congrArg String.toList (hlabel.symm.trans hlabel')
  simp only [String.toList_append, List.append_cancel_left_eq, Text.showInt,
    String.toList_ofList] at hchars
  exact Text.decimal_injective hchars

/-- An added row shows the number that it was given. -/
theorem Site.Added.showsLabel (h : s.Added d field number d') (hd' : WellFormed d') :
    ShowsLabel d' d.size (field ++ " " ++ Text.showInt number) := by
  have htd : Tag.td ≠ .text := by decide
  have htag : d'.tag? (d.size + 1) = some .td := by rw [tag?, h.labelCell]; rfl
  refine ⟨d.size + 1, ?_, hd'.textContent_of_single h.labelCell htd rfl h.label rfl⟩
  rw [children_of_node h.row, firstTagged, List.find?_cons_of_pos]
  exact decide_eq_true htag

section Site

variable (h : WellFormed d) (hup : Acyclic d.upward? d.size) (hs : s.Stands d control)
include h hup hs

/-- Where the nodes of a site stand and there is a next number, the row with it is added. -/
theorem Site.Stands.add_of_fits (field : String) (hfit : Text.Fits64 (s.index d field + 1)) :
    ∃ d', add d control field = (some d.size, d') ∧ s.Added d field (s.index d field + 1) d' ∧
      WellFormed d' := by
  rw [← Site.index_template] at hfit
  have hadd := add_of_placed h (hs.locate? h hup) hfit (hs.parent?_anchor h)
  have hkept := add_kept wellFormed_kept h control field
  rw [hadd] at hkept
  rw [Site.index_template] at hadd hkept
  exact ⟨_, hadd, hs.added h _, hkept⟩

/-- Where there is no next number, nothing is added. -/
theorem Site.Stands.add_of_last (field : String) (hlast : ¬ Text.Fits64 (s.index d field + 1)) :
    add d control field = (none, d) := by
  rw [← Site.index_template] at hlast
  simp only [add, hs.locate? h hup, hlast, if_false]

/-- The numbering goes on behind the number that the copied row is read to show, and behind no other
one, unless there is no next number. -/
theorem Site.Stands.goesOn_iff :
    GoesOn d control field n ↔ (Text.Fits64 (s.index d field + 1) → s.index d field = n) := by
  by_cases hfit : Text.Fits64 (s.index d field + 1)
  · obtain ⟨d', hadd, hadded, hd'⟩ := hs.add_of_fits h hup field hfit
    have hlabel := hadded.showsLabel hd'
    constructor
    · rintro (⟨row, d'', hadd', hlabel'⟩ | hnone) -
      · obtain ⟨hrow, rfl⟩ := Prod.mk.inj (hadd.symm.trans hadd')
        obtain rfl := Option.some.inj hrow
        have hsame := hlabel.number_unique hlabel'
        omega
      · rw [hnone] at hadd
        cases hadd
    · intro hn
      rw [hn hfit] at hlabel
      exact .inl ⟨_, d', hadd, hlabel⟩
  · exact ⟨fun _ hfit' => absurd hfit' hfit, fun _ => .inr (hs.add_of_last h hup field hfit)⟩

end Site

/-- How the numbering goes on where the copied row shows an integer, whatever its length. If it fits
64 bits, the new row shows the next one; if it is the last of these, there is no new row and nothing
has changed; and if it does not fit, the new row shows one. So the numbering goes on behind the
integer exactly if that fits 64 bits. -/
theorem numbering_of_shown (hd : Reachable d) (hloop : ∀ n, ¬ TransGen (Step d.upward?) n n)
    (hs : s.Stands d control) (hn : Label.Shows (d.textContent s.labelCell) field n) :
    (Text.Fits64 n → n ≠ 9223372036854775807 →
      ∃ d', add d control field = (some d.size, d') ∧ s.Added d field (n + 1) d') ∧
    (n = 9223372036854775807 → add d control field = (none, d)) ∧
    (¬ Text.Fits64 n → ∃ d', add d control field = (some d.size, d') ∧ s.Added d field 1 d') ∧
    (GoesOn d control field n ↔ Text.Fits64 n) := by
  have h := hd.wellFormed
  have hup := h.acyclic_upward hloop
  have hread : s.index d field = if Text.Fits64 n then n else 0 := Label.number_of_shows hn
  have hadd := hs.add_of_fits h hup field
  have hnone := hs.add_of_last h hup field
  rw [hs.goesOn_iff h hup]
  rw [hread] at hadd hnone ⊢
  refine ⟨fun hfit hlast => ?_, fun hlast => ?_, fun hfit => ?_, ?_⟩
  · rw [if_pos hfit] at hadd
    obtain ⟨d', he, hadded, -⟩ := hadd (by rw [Text.Fits64] at hfit ⊢; omega)
    exact ⟨d', he, hadded⟩
  · subst hlast
    exact hnone (by decide)
  · rw [if_neg hfit] at hadd
    obtain ⟨d', he, hadded, -⟩ := hadd (by decide)
    exact ⟨d', he, hadded⟩
  · by_cases hfit : Text.Fits64 n
    · simp [hfit]
    · rw [if_neg hfit]
      refine iff_of_false (fun hzero => hfit ?_) hfit
      rw [← hzero (by decide)]
      decide

/-- A row whose label shows the first integer beyond 64 bits, and the row of a control. -/
def longOperations : List Operation := [
  .call (.createElement .tr), .call (.createElement .td),
  .call (.createText "Field 9223372036854775808"), .call (.createElement .td),
  .call (.createElement .input), .call (.createElement .tr), .call (.appendChild 3 4),
  .call (.appendChild 2 3), .call (.appendChild 5 6), .call (.appendChild 2 5),
  .call (.appendChild body 2), .call (.appendChild body 7)]

/-- The nodes around the control's row. -/
def longSite : Site := ⟨7, body, [2], [], 2, 3, 5, 6⟩

theorem longSite_stands : longSite.Stands (after longOperations) 7 where
  anchor := .found (by decide +kernel)
  siblings := by decide +kernel
  above := by decide +kernel
  labelCell := by decide +kernel
  inputCell := ⟨[], [5], by decide +kernel⟩
  input := by decide +kernel

theorem longSite_shows : Label.Shows ((after longOperations).textContent longSite.labelCell)
    "Field" 9223372036854775808 := by
  refine ⟨[], [' '], "9223372036854775808".toList, nofun,
    List.forall_mem_singleton.mpr (by decide), ?_, by decide +kernel⟩
  exact .plain (Text.unsigned?_eq_some_iff.mp (by decide +kernel))

theorem long_loopless : ∀ n, ¬ TransGen (Step (after longOperations).upward?) n n :=
  irrefl_of_upward_lt (by decide +kernel)

/-- Behind the first integer beyond 64 bits the numbering starts again at one. -/
theorem numbering_long : (∀ n, ¬ TransGen (Step (after longOperations).upward?) n n) ∧
    longSite.Stands (after longOperations) 7 ∧
    Label.Shows ((after longOperations).textContent longSite.labelCell) "Field"
      9223372036854775808 ∧
    ∃ d', add (after longOperations) 7 "Field" = (some 8, d') ∧
      longSite.Added (after longOperations) "Field" 1 d' := by
  obtain ⟨-, -, hrestart, -⟩ :=
    numbering_of_shown ⟨longOperations, rfl⟩ long_loopless longSite_stands longSite_shows
  have hsize : (after longOperations).size = 8 := by decide +kernel
  obtain ⟨d', he, hadded⟩ := hrestart (by decide)
  rw [hsize] at he
  exact ⟨long_loopless, longSite_stands, longSite_shows, d', he, hadded⟩

/-- The numbering does not go on behind every integer. -/
theorem restarted_long :
    ¬ ∀ (d : Document) (control : NodeId) (field : String) (s : Site) (n : Int), Reachable d →
      (∀ m, ¬ TransGen (Step d.upward?) m m) → s.Stands d control →
      Label.Shows (d.textContent s.labelCell) field n → GoesOn d control field n := by
  intro h
  have hgoes := h (after longOperations) 7 "Field" longSite 9223372036854775808
    ⟨longOperations, rfl⟩ long_loopless longSite_stands longSite_shows
  rw [longSite_stands.goesOn_iff (wellFormed_after _)
    ((wellFormed_after _).acyclic_upward long_loopless)] at hgoes
  have hread : longSite.index (after longOperations) "Field" = 0 := by
    rw [Site.index, Label.number_of_shows longSite_shows]
    decide
  rw [hread] at hgoes
  exact absurd (hgoes (by decide)) (by decide)

end FormPage.Row
