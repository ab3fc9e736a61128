import FormPage.Proofs.Json.Layout

/-!
Reading written values back. A value without fractions whose members ascend is read back from its
text in every layout, exactly if it has no more levels than the reader accepts.
-/

namespace FormPage.Json

variable {l : Layout} {j : Json} {level limit : Nat} {c : Char} {cs ws rest : List Char}

/-- A value that its text gives back: the numbers in it are integers of 64 bits, and the keys of
every object ascend. -/
inductive Faithful : Json → Prop
  | null : Faithful .null
  | bool (b : Bool) : Faithful (.bool b)
  | int {n : Int} (h : Number.Exact n) : Faithful (.int n)
  | str (s : String) : Faithful (.str s)
  | arr {items : List Json} (h : ∀ x ∈ items, Faithful x) : Faithful (.arr items)
  | obj {members : List (String × Json)} (keys : Ascending members)
      (h : ∀ m ∈ members, Faithful m.2) : Faithful (.obj members)

/-! ### Blanks -/

/-- A run of blanks. -/
def Blank (ws : List Char) : Prop := ∀ c ∈ ws, isSpace c = true

theorem skipSpace_append (hws : Blank ws) (cs : List Char) :
    skipSpace (ws ++ cs) = skipSpace cs := List.dropWhile_append_of_pos hws

theorem skipSpace_cons (hc : isSpace c = false) (cs : List Char) :
    skipSpace (c :: cs) = c :: cs := by
  rw [skipSpace, List.dropWhile_cons_of_neg (by simp [hc])]

theorem readValue_append (hws : Blank ws) (cs : List Char) (limit : Nat) :
    readValue limit (ws ++ cs) = readValue limit cs := by
  rw [readValue.eq_def limit (ws ++ cs), skipSpace_append hws, ← readValue.eq_def]

theorem ends_blank_append (hws : Blank ws) (hrest : Number.Ends rest) :
    Number.Ends (ws ++ rest) := by
  cases ws with
  | nil => exact hrest
  | cons w ws =>
    intro c hc
    obtain rfl := Option.some.inj hc
    have hw := hws w List.mem_cons_self
    simp only [isSpace, Bool.or_eq_true, decide_eq_true_eq] at hw
    rcases hw with ((rfl | rfl) | rfl) | rfl <;> decide

theorem ends_cons (hc : Text.isDigit c = false ∧ c ≠ '.' ∧ c ≠ 'e' ∧ c ≠ 'E') (cs : List Char) :
    Number.Ends (c :: cs) := by
  intro b hb
  exact Option.some.inj hb ▸ hc

/-! ### Items and members -/

/-- A value is read back from its text wherever no part of a number follows. -/
def ReadsBack (l : Layout) (j : Json) : Prop :=
  ∀ (limit level : Nat) (rest : List Char), Number.Ends rest →
    readValue limit (spell l level j ++ rest) = if j.levels ≤ limit then some (j, rest) else none

/-- What is read in two steps, each up to a limit, is read up to the greater of two levels. -/
theorem ite_max_le {α β : Type} {a b k : Nat} (f : α → β) (r : α) :
    (if a ≤ k then (if b ≤ k then some r else none).map f else none) =
      if max a b ≤ k then some (f r) else none := by
  by_cases ha : a ≤ k <;> by_cases hb : b ≤ k <;> simp [ha, hb]

section Lists

variable {ws' : List Char} (hws : Blank ws)
include hws

theorem readItems_last (hws' : Blank ws') {x : Json} (hx : ReadsBack l x)
    (k limit level : Nat) (rest : List Char) :
    readItems (readValue k) (limit + 1) (ws ++ (spell l level x ++ (ws' ++ ']' :: rest))) =
      if x.levels ≤ k then some ([x], rest) else none := by
  have hends : Number.Ends (ws' ++ ']' :: rest) :=
    ends_blank_append hws' (ends_cons (by decide) rest)
  have hskip : skipSpace (ws' ++ ']' :: rest) = ']' :: rest := by
    rw [skipSpace_append hws', skipSpace_cons rfl]
  rw [readItems, readValue_append hws, hx k level _ hends]
  split
  · simp only [Option.bind_eq_bind, Option.bind_some, hskip]
    rfl
  · rfl

theorem readItems_more {x : Json} (hx : ReadsBack l x) (k limit level : Nat) (rest : List Char) :
    readItems (readValue k) (limit + 1) (ws ++ (spell l level x ++ ',' :: rest)) =
      if x.levels ≤ k then
        (readItems (readValue k) limit rest).map fun r => (x :: r.1, r.2)
      else none := by
  have hends : Number.Ends (',' :: rest) := ends_cons (by decide) rest
  have hskip : skipSpace (',' :: rest) = ',' :: rest := skipSpace_cons rfl rest
  rw [readItems, readValue_append hws, hx k level _ hends]
  split
  · simp only [Option.bind_eq_bind, Option.bind_some, hskip]
    cases readItems (readValue k) limit rest <;> rfl
  · rfl

/-- Items are read back up to the bracket. -/
theorem readItems_spell (hws' : Blank ws') {x : Json} {xs : List Json}
    (hxs : ∀ y ∈ x :: xs, ReadsBack l y) (hlimit : xs.length < limit) (k level : Nat)
    (rest : List Char) :
    readItems (readValue k) limit
        (ws ++ (spell l level x ++ (spellItems l level xs ++ (ws' ++ ']' :: rest)))) =
      if itemLevels (x :: xs) ≤ k then some (x :: xs, rest) else none := by
  obtain ⟨limit, rfl⟩ : ∃ i, limit = i + 1 := ⟨limit - 1, by omega⟩
  have hx := hxs x List.mem_cons_self
  induction xs generalizing x limit ws with
  | nil =>
    rw [spellItems, List.nil_append, readItems_last hws hws' hx, itemLevels, itemLevels,
      Nat.max_zero]
  | cons y ys ih =>
    obtain ⟨limit, rfl⟩ : ∃ i, limit = i + 1 := ⟨limit - 1, by simp at hlimit; omega⟩
    have hrest := ih (l.line_blank level) (fun z hz => hxs z (List.mem_cons_of_mem x hz)) limit
      (by simpa using hlimit) (hxs y (by simp))
    have hsplit : spellItems l level (y :: ys) ++ (ws' ++ ']' :: rest) =
        ',' :: (l.line level ++
          (spell l level y ++ (spellItems l level ys ++ (ws' ++ ']' :: rest)))) := by
      simp [spellItems]
    have hlevels : itemLevels (x :: y :: ys) = max x.levels (itemLevels (y :: ys)) := by
      rw [itemLevels]
    rw [hsplit, readItems_more hws hx, hrest, ite_max_le, hlevels]

/-- The characters of a member behind its first quote. -/
theorem skipSpace_key (key : String) (cs : List Char) : skipSpace (ws ++ (quote key ++ cs)) =
    '"' :: (key.toList.flatMap escapeChar ++ '"' :: cs) := by
  have hquote : quote key ++ cs = '"' :: (key.toList.flatMap escapeChar ++ '"' :: cs) := by
    simp [quote]
  rw [skipSpace_append hws, hquote, skipSpace_cons rfl]

theorem readMembers_last (hws' : Blank ws') {v : Json} (hv : ReadsBack l v) (key : String)
    (k limit level : Nat) (rest : List Char) :
    readMembers (readValue k) (limit + 1)
        (ws ++ (quote key ++ ':' :: (l.gap ++ (spell l level v ++ (ws' ++ '\x7d' :: rest))))) =
      if v.levels ≤ k then some ([(key, v)], rest) else none := by
  have hends : Number.Ends (ws' ++ '\x7d' :: rest) :=
    ends_blank_append hws' (ends_cons (by decide) rest)
  have hskip : skipSpace (ws' ++ '\x7d' :: rest) = '\x7d' :: rest := by
    rw [skipSpace_append hws', skipSpace_cons rfl]
  have hcolon := skipSpace_cons (c := ':') rfl
  rw [readMembers, skipSpace_key hws]
  simp only [readString_escaped, Option.bind_eq_bind, Option.bind_some, String.ofList_toList,
    hcolon, readValue_append l.gap_blank, hv k level _ hends]
  split
  · simp only [Option.bind_some, hskip]
    rfl
  · rfl

theorem readMembers_more {v : Json} (hv : ReadsBack l v) (key : String) (k limit level : Nat)
    (rest : List Char) :
    readMembers (readValue k) (limit + 1)
        (ws ++ (quote key ++ ':' :: (l.gap ++ (spell l level v ++ ',' :: rest)))) =
      if v.levels ≤ k then
        (readMembers (readValue k) limit rest).map fun r => ((key, v) :: r.1, r.2)
      else none := by
  have hends : Number.Ends (',' :: rest) := ends_cons (by decide) rest
  have hskip : skipSpace (',' :: rest) = ',' :: rest := skipSpace_cons rfl rest
  have hcolon := skipSpace_cons (c := ':') rfl
  rw [readMembers, skipSpace_key hws]
  simp only [readString_escaped, Option.bind_eq_bind, Option.bind_some, String.ofList_toList,
    hcolon, readValue_append l.gap_blank, hv k level _ hends]
  split
  · simp only [Option.bind_some, hskip]
    cases readMembers (readValue k) limit rest <;> rfl
  · rfl

/-- Members are read back up to the brace. -/
theorem readMembers_spell (hws' : Blank ws') {key : String} {v : Json}
    {ms : List (String × Json)} (hms : ∀ m ∈ (key, v) :: ms, ReadsBack l m.2)
    (hlimit : ms.length < limit) (k level : Nat) (rest : List Char) :
    readMembers (readValue k) limit
        (ws ++ (quote key ++ ':' :: (l.gap ++ (spell l level v ++
          (spellMembers l level ms ++ (ws' ++ '\x7d' :: rest)))))) =
      if memberLevels ((key, v) :: ms) ≤ k then some ((key, v) :: ms, rest) else none := by
  obtain ⟨limit, rfl⟩ : ∃ i, limit = i + 1 := ⟨limit - 1, by omega⟩
  have hv := hms (key, v) List.mem_cons_self
  induction ms generalizing key v limit ws with
  | nil =>
    rw [spellMembers, List.nil_append, readMembers_last hws hws' hv, memberLevels, memberLevels,
      Nat.max_zero]
  | cons m ms ih =>
    obtain ⟨key', v'⟩ := m
    obtain ⟨limit, rfl⟩ : ∃ i, limit = i + 1 := ⟨limit - 1, by simp at hlimit; omega⟩
    have hrest := ih (l.line_blank level) (fun m hm => hms m (List.mem_cons_of_mem _ hm)) limit
      (by simpa using hlimit) (hms (key', v') (by simp))
    have hsplit : spellMembers l level ((key', v') :: ms) ++ (ws' ++ '\x7d' :: rest) =
        ',' :: (l.line level ++ (quote key' ++ ':' :: (l.gap ++ (spell l level v' ++
          (spellMembers l level ms ++ (ws' ++ '\x7d' :: rest)))))) := by
      simp [spellMembers]
    have hlevels : memberLevels ((key, v) :: (key', v') :: ms) =
        max v.levels (memberLevels ((key', v') :: ms)) := by
      rw [memberLevels]
    rw [hsplit, readMembers_more hws hv, hrest, ite_max_le, hlevels]

end Lists

/-! ### Values -/

theorem exists_decimal_cons (n : Int) :
    ∃ c cs, Text.decimal n = c :: cs ∧ (c = '-' ∨ Text.isDigit c = true) := by
  have hmem : ∀ c ∈ Text.decimal n, c = '-' ∨ Text.isDigit c = true :=
    fun c hc => Text.mem_decimal hc
  cases hn : Text.decimal n with
  | cons c cs => exact ⟨c, cs, rfl, hmem c (by rw [hn]; exact List.mem_cons_self)⟩
  | nil =>
    cases n with
    | ofNat k => exact absurd hn (Text.digits_ne_nil k)
    | negSucc k => cases hn

/-- The first character of an integer begins no other value, and is no blank. -/
theorem not_mem_of_sign_or_digit (hc : c = '-' ∨ Text.isDigit c = true) :
    isSpace c = false ∧ c ∉ ['n', 't', 'f', '"', '[', ']', '\x7b'] := by
  rcases hc with rfl | hc
  · decide
  · have hrange := Text.isDigit_iff.mp hc
    constructor
    · simp only [isSpace, Bool.or_eq_false_iff, decide_eq_false_iff_not]
      refine ⟨⟨⟨?_, ?_⟩, ?_⟩, ?_⟩ <;> rintro rfl <;> revert hrange <;> decide
    · simp only [List.mem_cons, List.not_mem_nil, or_false, not_or]
      refine ⟨?_, ?_, ?_, ?_, ?_, ?_, ?_⟩ <;> rintro rfl <;> revert hrange <;> decide

/-- What a text begins with: no blank and no closing bracket. -/
theorem Faithful.spell_head (h : Faithful j) (l : Layout) (level : Nat) :
    ∃ c cs, spell l level j = c :: cs ∧ isSpace c = false ∧ c ≠ ']' := by
  cases h with
  | null | str => exact ⟨_, _, rfl, rfl, by decide⟩
  | bool b => cases b <;> exact ⟨_, _, rfl, rfl, by decide⟩
  | @int n =>
    obtain ⟨c, cs, hcs, hc⟩ := exists_decimal_cons n
    obtain ⟨hspace, hother⟩ := not_mem_of_sign_or_digit hc
    refine ⟨c, cs, hcs, hspace, ?_⟩
    rintro rfl
    simp at hother
  | @arr items => cases items <;> exact ⟨_, _, rfl, rfl, by decide⟩
  | @obj members => cases members <;> exact ⟨_, _, rfl, rfl, by decide⟩

theorem readsBack_int {n : Int} (hn : Number.Exact n) (l : Layout) : ReadsBack l (.int n) := by
  intro limit level rest hrest
  have hread := Number.read_decimal hn hrest
  obtain ⟨c, cs, hcs, hc⟩ := exists_decimal_cons n
  obtain ⟨hspace, hother⟩ := not_mem_of_sign_or_digit hc
  have hspell : spell l level (.int n) = Text.decimal n := rfl
  rw [hcs, List.cons_append] at hread
  rw [hspell, hcs, List.cons_append, readValue.eq_def, skipSpace_cons hspace]
  split
  case h_7 => simp [hread, levels]
  all_goals
    rename_i heq
    obtain ⟨rfl, -⟩ := List.cons.inj heq
    simp at hother

theorem readsBack_str (s : String) (l : Layout) : ReadsBack l (.str s) := by
  intro limit level rest _
  have hquote : spell l level (.str s) ++ rest =
      '"' :: (s.toList.flatMap escapeChar ++ '"' :: rest) := by
    simp [spell, compact, quote]
  rw [hquote, readValue.eq_def, skipSpace_cons rfl]
  simp [readString_escaped, levels]

theorem length_le_spellItems (l : Layout) (level : Nat) (xs : List Json) :
    xs.length ≤ (spellItems l level xs).length := by
  induction xs with
  | nil => rfl
  | cons x xs ih =>
    simp only [spellItems, List.length_cons, List.length_append]
    omega

theorem length_le_spellMembers (l : Layout) (level : Nat) (ms : List (String × Json)) :
    ms.length ≤ (spellMembers l level ms).length := by
  induction ms with
  | nil => rfl
  | cons m ms ih =>
    simp only [spellMembers, List.length_cons, List.length_append]
    omega

/-- Reading an array that is not empty. -/
theorem readValue_arr (hc : c ≠ ']') (hrest : skipSpace rest = c :: cs) (limit : Nat) :
    readValue (limit + 1) ('[' :: rest) =
      (readItems (readValue limit) (rest.length + 1) rest).map fun r => (.arr r.1, r.2) := by
  rw [readValue.eq_def, skipSpace_cons rfl]
  simp only [hrest]
  split
  · rename_i heq
    exact absurd (List.cons.inj heq).1 hc
  · rfl

/-- Reading an object that is not empty. -/
theorem readValue_obj (hc : c ≠ '\x7d') (hrest : skipSpace rest = c :: cs) (limit : Nat) :
    readValue (limit + 1) ('\x7b' :: rest) =
      (readMembers (readValue limit) (rest.length + 1) rest).map
        fun r => (ofMembers r.1, r.2) := by
  rw [readValue.eq_def, skipSpace_cons rfl]
  simp only [hrest]
  split
  · rename_i heq
    exact absurd (List.cons.inj heq).1 hc
  · rfl

theorem readsBack_arr {items : List Json} (hitems : ∀ x ∈ items, Faithful x)
    (h : ∀ x ∈ items, ReadsBack l x) : ReadsBack l (.arr items) := by
  intro limit level rest _
  cases items with
  | nil =>
    rw [readValue.eq_def]
    cases limit <;> rfl
  | cons x xs =>
    have hspell : spell l level (.arr (x :: xs)) ++ rest = '[' :: (l.line (level + 1) ++
        (spell l (level + 1) x ++ (spellItems l (level + 1) xs ++
          (l.line level ++ ']' :: rest)))) := by
      simp [spell]
    have hlevels : (Json.arr (x :: xs)).levels = itemLevels (x :: xs) + 1 := by rw [levels]
    rw [hspell, hlevels]
    cases limit with
    | zero => rw [readValue.eq_def]; rfl
    | succ limit =>
      obtain ⟨c, cs, hcs, hspace, hbracket⟩ :=
        (hitems x List.mem_cons_self).spell_head l (level + 1)
      have hskip : skipSpace (l.line (level + 1) ++ (spell l (level + 1) x ++
          (spellItems l (level + 1) xs ++ (l.line level ++ ']' :: rest)))) =
          c :: (cs ++ (spellItems l (level + 1) xs ++ (l.line level ++ ']' :: rest))) := by
        rw [skipSpace_append (l.line_blank _), hcs, List.cons_append, skipSpace_cons hspace]
      rw [readValue_arr hbracket hskip,
        readItems_spell (l.line_blank (level + 1)) (l.line_blank level) h ?_]
      · by_cases hle : itemLevels (x :: xs) ≤ limit <;> simp [hle]
      · have hle := length_le_spellItems l (level + 1) xs
        simp only [List.length_append]
        omega

theorem readsBack_obj {members : List (String × Json)} (hkeys : Ascending members)
    (h : ∀ m ∈ members, ReadsBack l m.2) : ReadsBack l (.obj members) := by
  intro limit level rest _
  cases members with
  | nil =>
    rw [readValue.eq_def]
    cases limit <;> rfl
  | cons m ms =>
    obtain ⟨k, v⟩ := m
    have hspell : spell l level (.obj ((k, v) :: ms)) ++ rest = '\x7b' :: (l.line (level + 1) ++
        (quote k ++ ':' :: (l.gap ++ (spell l (level + 1) v ++ (spellMembers l (level + 1) ms ++
          (l.line level ++ '\x7d' :: rest)))))) := by
      simp [spell]
    have hlevels : (Json.obj ((k, v) :: ms)).levels = memberLevels ((k, v) :: ms) + 1 := by
      rw [levels]
    rw [hspell, hlevels]
    cases limit with
    | zero => rw [readValue.eq_def]; rfl
    | succ limit =>
      have hskip : ∃ cs, skipSpace (l.line (level + 1) ++ (quote k ++ ':' :: (l.gap ++
          (spell l (level + 1) v ++ (spellMembers l (level + 1) ms ++
            (l.line level ++ '\x7d' :: rest)))))) = '"' :: cs := by
        rw [skipSpace_append (l.line_blank _), quote, List.cons_append, List.cons_append,
          skipSpace_cons rfl]
        exact ⟨_, rfl⟩
      obtain ⟨cs, hskip⟩ := hskip
      rw [readValue_obj (by decide) hskip,
        readMembers_spell (l.line_blank (level + 1)) (l.line_blank level) h ?_]
      · by_cases hle : memberLevels ((k, v) :: ms) ≤ limit <;>
          simp [hle, ofMembers_of_ascending hkeys]
      · have hle := length_le_spellMembers l (level + 1) ms
        simp only [List.length_append, List.length_cons]
        omega

/-- A faithful value is read back from its text in every layout. -/
theorem Faithful.readsBack (h : Faithful j) (l : Layout) : ReadsBack l j := by
  induction h with
  | null =>
    intro limit level rest _
    rw [readValue.eq_def]
    rfl
  | bool b =>
    intro limit level rest _
    rw [readValue.eq_def]
    cases b <;> rfl
  | int hn => exact readsBack_int hn l
  | str s => exact readsBack_str s l
  | arr hitems ih => exact readsBack_arr hitems ih
  | obj hkeys _ ih => exact readsBack_obj hkeys ih

/-- A text that holds a faithful value and blanks behind it is accepted exactly if the value has no
more levels than the reader accepts, and then gives the value back. -/
theorem Faithful.parse?_spell (h : Faithful j) (l : Layout) (hws : Blank ws) (limit : Nat) :
    parse? limit (String.ofList (spell l 0 j ++ ws)) =
      if j.levels ≤ limit then some j else none := by
  have hends : Number.Ends ws := by
    have happend : Number.Ends (ws ++ []) := ends_blank_append hws fun c hc => by cases hc
    rwa [List.append_nil] at happend
  have hskip : skipSpace ws = [] := by
    have happend := skipSpace_append hws []
    rwa [List.append_nil] at happend
  rw [parse?, String.toList_ofList, h.readsBack l limit 0 ws hends]
  split
  · simp [hskip]
  · rfl

/-- The same for both forms of text, with a line end behind them. -/
theorem Faithful.parse?_text (h : Faithful j) (pretty : Bool) (limit : Nat) :
    parse? limit ((if pretty then j.prettyText else j.compactText) ++ "\n") =
      if j.levels ≤ limit then some j else none := by
  have hws : Blank ['\n'] := List.forall_mem_singleton.mpr rfl
  have hend : "\n" = String.ofList ['\n'] := rfl
  cases pretty with
  | true =>
    rw [if_pos rfl, prettyText, prettyAt_eq_spell, hend, ← String.ofList_append]
    exact h.parse?_spell .lined hws limit
  | false =>
    rw [if_neg Bool.false_ne_true, compactText, compact_eq_spell 0, hend, ← String.ofList_append]
    exact h.parse?_spell .dense hws limit

end FormPage.Json
