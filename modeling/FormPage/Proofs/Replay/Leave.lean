import FormPage.Replay.Arguments

/-!
Leave to overwrite. An option is named by itself or by its letter in a row of letters, its values
may stand behind it or be attached to it, and it is checked only when the next option begins. In
spite of that, whether a command line gives leave to overwrite can be seen from its arguments one by
one. Main statement: `force_iff`.
-/

namespace FormPage.Replay

/-- Letters behind one dash, one of which gives leave to overwrite: those in front of it are options
that take no value. -/
inductive LeaveLetter : List Char → Prop
  | here (rest : List Char) : LeaveLetter ('f' :: rest)
  | behind {flag : Flag} {c : Char} {rest : List Char} (hletter : flag.letter? = some c)
      (hvalue : flag.takesValue = false) (hrest : LeaveLetter rest) : LeaveLetter (c :: rest)

/-- An argument that gives leave to overwrite. -/
inductive GivesLeave : List Char → Prop
  | name : GivesLeave "--force".toList
  | letter {cs : List Char} (h : LeaveLetter cs) : GivesLeave ('-' :: cs)

namespace Flag

variable {f g : Flag} {c : Char}

theorem name_inj (h : f.name = g.name) : f = g := by
  cases f <;> cases g <;> first | rfl | simp [name] at h

theorem letter?_inj (hf : f.letter? = some c) (hg : g.letter? = some c) : f = g := by
  rw [← hg] at hf
  cases f <;> cases g <;> first | rfl | simp [letter?] at hf hg

theorem ne_force_of_takesValue (h : f.takesValue = true) : f ≠ .force := by
  rintro rfl
  cases h

end Flag

theorem not_leaveLetter_dash (cs : List Char) : ¬ LeaveLetter ('-' :: cs) := by
  intro h
  cases h with
  | @behind flag _ _ hletter => cases flag <;> simp [Flag.letter?] at hletter

theorem givesLeave_long_iff {cs : List Char} :
    GivesLeave ('-' :: '-' :: cs) ↔ cs = "force".toList := by
  constructor
  · intro h
    cases h with
    | name => rfl
    | letter h => exact absurd h (not_leaveLetter_dash cs)
  · rintro rfl
    exact .name

theorem givesLeave_letter_iff {c : Char} {cs : List Char} (hc : c ≠ '-') :
    GivesLeave ('-' :: c :: cs) ↔ LeaveLetter (c :: cs) := by
  constructor
  · intro h
    cases h with
    | name => exact absurd rfl hc
    | letter h => exact h
  · exact .letter

theorem GivesLeave.exists_cons {cs : List Char} (h : GivesLeave cs) :
    ∃ c rest, cs = '-' :: c :: rest := by
  cases h with
  | name => exact ⟨_, _, rfl⟩
  | letter h => cases h <;> exact ⟨_, _, rfl⟩

/-- In a row of letters an option without a value is skipped. -/
theorem leaveLetter_cons {flag : Flag} {c : Char} {rest : List Char} (hc : flag.letter? = some c)
    (hvalue : flag.takesValue = false) :
    LeaveLetter (c :: rest) ↔ flag = .force ∨ LeaveLetter rest := by
  constructor
  · intro h
    cases h with
    | here => exact .inl (Flag.letter?_inj hc rfl)
    | behind _ _ hrest => exact .inr hrest
  · rintro (rfl | hrest)
    · cases hc
      exact .here rest
    · exact .behind hc hvalue hrest

/-- The first option that takes a value takes the other letters. -/
theorem not_leaveLetter_cons {flag : Flag} {c : Char} {rest : List Char}
    (hc : flag.letter? = some c) (hvalue : flag.takesValue = true) : ¬ LeaveLetter (c :: rest) := by
  intro h
  cases h with
  | here => exact Flag.ne_force_of_takesValue hvalue (Flag.letter?_inj hc rfl)
  | behind hletter hnone =>
    rw [Flag.letter?_inj hc hletter, hnone] at hvalue
    cases hvalue

namespace Parsing

variable {α β : Type} {p p' p'' : Parsing} {flag : Flag} {values : List String}
  {attached : Option String} {cs : List Char} {leave leave' : Prop}

theorem exists_of_bind {r : Except Halt α} {f : α → Except Halt β} {b : β}
    (h : r >>= f = .ok b) : ∃ a, r = .ok a ∧ f a = .ok b := by
  cases r with
  | error halt => cases h
  | ok a => exact ⟨a, rfl, h⟩

/-- Only an option that takes a value is left to be checked. -/
def Valued (p : Parsing) : Prop :=
  ∀ flag values, p.pending = some (flag, values) → flag.takesValue = true

/-- A part of a command line that adds leave to overwrite, or not. -/
structure Adds (leave : Prop) (p p' : Parsing) : Prop where
  force : p'.draft.force = true ↔ p.draft.force = true ∨ leave
  valued : Valued p'

theorem Adds.refl (hp : Valued p) : Adds False p p := ⟨iff_of_eq (or_false _).symm, hp⟩

theorem Adds.congr (h : Adds leave p p') (hiff : leave ↔ leave') : Adds leave' p p' :=
  ⟨h.force.trans (or_congr_right hiff), h.valued⟩

theorem Adds.trans (h : Adds leave p p') (h' : Adds leave' p' p'') :
    Adds (leave ∨ leave') p p'' :=
  ⟨by rw [h'.force, h.force, or_assoc], h'.valued⟩

theorem valued_of_none (h : p.pending = none) : Valued p := by
  intro flag values hpending
  rw [h] at hpending
  cases hpending

theorem apply_force {draft draft' : Arguments} (h : apply draft flag values = .ok draft') :
    draft'.force = true ↔ draft.force = true ∨ flag = .force := by
  cases flag with
  | event =>
    obtain ⟨cues, -, h⟩ := exists_of_bind h
    cases h
    simp
  | version => cases h
  | _ => cases h; simp

theorem adds_add (h : p.add flag values = .ok p') : Adds (flag = .force) p p' := by
  rw [add] at h
  split at h
  · cases h
  · split at h
    · cases h
    · obtain ⟨draft, hdraft, h⟩ := exists_of_bind h
      cases h
      exact ⟨apply_force hdraft, valued_of_none rfl⟩

/-- The option that is left to be checked gives no leave, since it takes a value. -/
theorem adds_settle (hp : Valued p) (h : p.settle = .ok p') : Adds False p p' := by
  rw [settle] at h
  split at h
  · cases h
    exact .refl hp
  · rename_i flag values hpending
    have hadds := adds_add h
    have hforce := Flag.ne_force_of_takesValue (hp flag values hpending)
    exact ⟨(hadds.congr (iff_false_intro hforce)).force, hadds.valued⟩

theorem adds_begin (hp : Valued p) (h : p.begin flag attached = .ok p') :
    Adds (flag = .force ∧ attached = none) p p' := by
  unfold begin at h
  split at h
  · rename_i value htakes
    obtain ⟨p₁, hsettle, h⟩ := exists_of_bind h
    have hforce := Flag.ne_force_of_takesValue htakes
    exact ((adds_settle hp hsettle).trans (adds_add h)).congr (by simp [hforce])
  · rename_i htakes
    obtain ⟨p₁, hsettle, h⟩ := exists_of_bind h
    cases h
    refine ⟨?_, ?_⟩
    · simpa [Flag.ne_force_of_takesValue htakes] using (adds_settle hp hsettle).force
    · rintro _ _ ⟨⟩
      exact htakes
  · cases h
  · obtain ⟨p₁, hsettle, h⟩ := exists_of_bind h
    exact ((adds_settle hp hsettle).trans (adds_add h)).congr (by simp)

theorem adds_long (hp : Valued p) (h : p.long cs = .ok p') : Adds (cs = "force".toList) p p' := by
  rw [long] at h
  split at h
  · cases h
  · rename_i flag hflag
    have hname : flag.name.toList = cs.takeWhile (· ≠ '=') := by
      simpa using List.find?_some hflag
    split at h
    · rename_i hdrop
      have hcs := List.takeWhile_append_dropWhile (p := (· ≠ '=')) (l := cs)
      rw [hdrop, List.append_nil, ← hname] at hcs
      refine (adds_begin hp h).congr ?_
      rw [← hcs, String.toList_inj, and_iff_left rfl]
      exact ⟨fun hforce => hforce ▸ rfl, fun hforce => Flag.name_inj hforce⟩
    · rename_i mark value hdrop
      -- an argument with a value attached is not the name alone
      refine (adds_begin hp h).congr (iff_of_false nofun ?_)
      rintro rfl
      cases hdrop

theorem adds_short (hp : Valued p) (h : p.short cs = .ok p') : Adds (LeaveLetter cs) p p' := by
  induction cs generalizing p with
  | nil =>
    cases h
    exact (Adds.refl hp).congr (iff_of_false not_false nofun)
  | cons c rest ih =>
    rw [short] at h
    split at h
    · cases h
    · rename_i flag hflag
      have hletter : flag.letter? = some c := by simpa using List.find?_some hflag
      split at h
      · -- the rest of the row is a value, whatever letters it has
        rename_i htakes
        have hnot : ¬ LeaveLetter (c :: rest) := not_leaveLetter_cons hletter htakes
        have hforce := Flag.ne_force_of_takesValue htakes
        split at h <;> exact (adds_begin hp h).congr (by simp [hnot, hforce])
      · rename_i htakes
        obtain ⟨p₁, h₁, h⟩ := exists_of_bind h
        have hadds := adds_begin hp h₁
        refine (hadds.trans (ih hadds.valued h)).congr ?_
        rw [leaveLetter_cons hletter (Bool.eq_false_iff.mpr htakes)]
        simp

theorem adds_value {argument : String} (hp : Valued p) (h : p.value argument = .ok p') :
    Adds False p p' := by
  rw [value] at h
  split at h
  · rename_i flag values hpending
    split at h
    · cases h
      refine ⟨iff_of_eq (or_false _).symm, ?_⟩
      rintro _ _ ⟨⟩
      exact hp flag values hpending
    · cases h
  · cases h

theorem adds_readFrom (line : List String) (hp : Valued p) (h : p.readFrom line = .ok p') :
    Adds (∃ argument ∈ line, GivesLeave argument.toList) p p' := by
  induction line generalizing p with
  | nil => exact (adds_settle hp h).congr (by simp)
  | cons argument rest ih =>
    have hcons : ∀ p₁, Adds (GivesLeave argument.toList) p p₁ → p₁.readFrom rest = .ok p' →
        Adds (∃ argument' ∈ argument :: rest, GivesLeave argument'.toList) p p' := fun p₁ hadds h =>
      (hadds.trans (ih hadds.valued h)).congr (by simp)
    unfold readFrom at h
    split at h
    · rename_i hdashes
      split at h
      · refine (adds_settle hp h).congr ?_
        simp [hdashes, givesLeave_long_iff]
      · cases h
    · rename_i cs _ hlong
      obtain ⟨p₁, h₁, h⟩ := exists_of_bind h
      rw [hlong, givesLeave_long_iff] at hcons
      exact hcons p₁ (adds_long hp h₁) h
    · rename_i c cs _ hnot hshort
      obtain ⟨p₁, h₁, h⟩ := exists_of_bind h
      rw [hshort, givesLeave_letter_iff hnot] at hcons
      exact hcons p₁ (adds_short hp h₁) h
    · rename_i hnot
      obtain ⟨p₁, h₁, h⟩ := exists_of_bind h
      refine hcons p₁ ((adds_value hp h₁).congr (iff_of_false not_false fun hleave => ?_)) h
      obtain ⟨c, cs, hcs⟩ := hleave.exists_cons
      exact hnot c cs hcs

theorem eq_draft_of_finish {args : Arguments} (h : p.finish = .ok args) : args = p.draft := by
  rw [finish] at h
  split at h
  · cases h
  · split at h
    · cases h
      rfl
    · cases h

end Parsing

/-- A command line that is read to its end gives leave to overwrite if one of its arguments does. -/
theorem force_iff {line : List String} {args : Arguments} (h : Arguments.parse line = .ok args) :
    args.force = true ↔ ∃ argument ∈ line, GivesLeave argument.toList := by
  obtain ⟨p, hread, hfinish⟩ := Parsing.exists_of_bind h
  have hadds := Parsing.adds_readFrom line (Parsing.valued_of_none rfl) hread
  rw [Parsing.eq_draft_of_finish hfinish, hadds.force]
  exact or_iff_right nofun

end FormPage.Replay
