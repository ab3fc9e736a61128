import FormPage.Proofs.Json.Levels

/-!
The keys of the page format. A page document consists of records of seven kinds, each with its
fields; what stands behind a field may again be a record, an array of records or a map to records.
A tidied value leaves out the keys that the format does not define, except where they are faults.
-/

namespace FormPage

namespace PageFormat

/-- The records of a page document. -/
inductive Part where
  | page | options | nudge | node | style | geometry | action
deriving DecidableEq, Repr

/-- What a value is read as: no record, a record, an array of records or a map to records. -/
inductive Slot where
  | plain
  | one (p : Part)
  | list (p : Part)
  | map (p : Part)
deriving DecidableEq, Repr

namespace Part

/-- The fields of a record, in the order in which an array gives them. What else an action is given
is plain and depends on its name. -/
def fields : Part → List (String × Slot)
  | page => [("title", .plain), ("options", .one options), ("body", .list node)]
  | options =>
    [("request_field", .plain), ("balloon_id", .plain), ("balloon_class", .plain),
      ("nudge", .one nudge), ("default_field_name", .plain)]
  | nudge => [("left", .plain), ("top", .plain)]
  | node =>
    [("tag", .plain), ("attributes", .plain), ("text", .plain), ("style", .one style),
      ("geometry", .one geometry), ("on", .map action), ("children", .list node)]
  | style => [("display", .plain), ("position", .plain), ("left", .plain), ("top", .plain)]
  | geometry => [("left", .plain), ("top", .plain), ("width", .plain), ("height", .plain)]
  | action => [("action", .plain)]

/-- What an action with a name is given. -/
def arguments (name : String) : List String :=
  if name = "add-field" then ["field"]
  else if name = "set-request" then ["value"]
  else if name = "show-help" then ["text"]
  else []

/-- What the action that an object names is given. -/
def given (ms : List (String × Json)) : List String :=
  match ms.find? fun m => m.1 = "action" with
  | some (_, .str name) => arguments name
  | _ => []

/-- The keys that the format defines in an object for a record. -/
def keys (p : Part) (ms : List (String × Json)) : List String :=
  p.fields.map Prod.fst ++ if p = action then given ms else []

/-- The records in which an undefined key is a fault. -/
def strict (p : Part) : Bool := p = page ∨ p = node

/-- A record has no two fields of the same name. -/
theorem lookup_of_mem {p : Part} {e : String × Slot} (h : e ∈ p.fields) :
    p.fields.lookup e.1 = some e.2 := by
  revert e
  cases p <;> decide

theorem mem_keys_of_mem {p : Part} {k : String} {ms : List (String × Json)}
    (h : k ∈ p.fields.map Prod.fst) : k ∈ p.keys ms :=
  List.mem_append_left _ h

end Part

namespace Slot

/-- What the value behind a key is read as. -/
def member : Slot → String → Slot
  | one p, k => (p.fields.lookup k).getD plain
  | map p, _ => one p
  | _, _ => plain

/-- What an item is read as. -/
def item : Slot → Nat → Slot
  | one p, i => ((p.fields[i]?).map Prod.snd).getD plain
  | list p, _ => one p
  | _, _ => plain

/-- Whether a tidied object keeps a key. -/
def keeps (s : Slot) (ms : List (String × Json)) (k : String) : Bool :=
  match s with
  | one p => p.strict || k ∈ p.keys ms
  | _ => true

theorem item_one {p : Part} {i : Nat} {e : String × Slot} (h : p.fields[i]? = some e) :
    (one p).item i = (one p).member e.1 := by
  rw [item, member, h, Part.lookup_of_mem (List.mem_of_getElem? h)]
  rfl

/-- What stands behind a key is plain, unless the key is a field. -/
theorem member_one (p : Part) (k : String) :
    (one p).member k = plain ∨ (k, (one p).member k) ∈ p.fields := by
  rw [member]
  cases hk : p.fields.lookup k with
  | none => exact .inl rfl
  | some s =>
    obtain ⟨es, es', hes, -⟩ := List.lookup_eq_some_iff.mp hk
    exact .inr (by simp [hes])

theorem member_of_not_mem {p : Part} {k : String} (h : k ∉ p.fields.map Prod.fst) :
    (one p).member k = plain := by
  rcases member_one p k with hplain | hmem
  · exact hplain
  · exact absurd (List.mem_map_of_mem hmem) h

/-- In a record with plain fields only, nothing is read as a record. -/
theorem member_of_plain {p : Part} (h : ∀ e ∈ p.fields, e.2 = plain) (k : String) :
    (one p).member k = plain := by
  rcases member_one p k with hplain | hmem
  · exact hplain
  · exact h _ hmem

theorem item_of_plain {p : Part} (h : ∀ e ∈ p.fields, e.2 = plain) (i : Nat) :
    (one p).item i = plain := by
  cases he : p.fields[i]? with
  | none => rw [item, he]; rfl
  | some e => rw [item_one he, member_of_plain h]

end Slot

/-- `Contains s j p ms`: inside `j`, which is read as `s`, the object with the members `ms` stands
for the record `p`. -/
inductive Contains : Slot → Json → Part → List (String × Json) → Prop
  | here {p : Part} {ms : List (String × Json)} : Contains (.one p) (.obj ms) p ms
  | member {s : Slot} {p : Part} {ms below : List (String × Json)} {m : String × Json}
      (hm : m ∈ ms) (h : Contains (s.member m.1) m.2 p below) : Contains s (.obj ms) p below
  | item {s : Slot} {p : Part} {items : List Json} {below : List (String × Json)} {i : Nat}
      {v : Json} (hv : items[i]? = some v) (h : Contains (s.item i) v p below) :
      Contains s (.arr items) p below

mutual

/-- A value that is read as `s`, without the undefined keys that are no faults. -/
def tidied (s : Slot) : Json → Json
  | .arr items => .arr (tidiedItems s 0 items)
  | .obj ms => .obj (tidiedMembers s (s.keeps ms) ms)
  | j => j

/-- The items from the index `i` on. -/
def tidiedItems (s : Slot) (i : Nat) : List Json → List Json
  | [] => []
  | v :: vs => tidied (s.item i) v :: tidiedItems s (i + 1) vs

/-- The members that are kept. -/
def tidiedMembers (s : Slot) (keep : String → Bool) : List (String × Json) → List (String × Json)
  | [] => []
  | (k, v) :: ms =>
    if keep k then (k, tidied (s.member k) v) :: tidiedMembers s keep ms
    else tidiedMembers s keep ms

end

/-- The member that is left of a member. -/
def tidiedMember (s : Slot) (m : String × Json) : String × Json := (m.1, tidied (s.member m.1) m.2)

theorem tidiedMembers_eq (s : Slot) (keep : String → Bool) (ms : List (String × Json)) :
    tidiedMembers s keep ms = (ms.filter fun m => keep m.1).map (tidiedMember s) := by
  induction ms with
  | nil => rfl
  | cons m ms ih =>
    rw [tidiedMembers, List.filter_cons, ih]
    split <;> rfl

theorem mem_tidiedMembers {s : Slot} {keep : String → Bool} {ms : List (String × Json)}
    {m : String × Json} : m ∈ tidiedMembers s keep ms ↔
      ∃ m₀ ∈ ms, keep m₀.1 = true ∧ tidiedMember s m₀ = m := by
  simp only [tidiedMembers_eq, List.mem_map, List.mem_filter, and_assoc]

theorem getElem?_tidiedItems (s : Slot) (vs : List Json) (i n : Nat) :
    (tidiedItems s n vs)[i]? = (vs[i]?).map (tidied (s.item (n + i))) := by
  induction vs generalizing i n with
  | nil => rfl
  | cons v vs ih =>
    cases i with
    | zero => rfl
    | succ i =>
      rw [tidiedItems, List.getElem?_cons_succ, List.getElem?_cons_succ, ih, Nat.add_right_comm,
        Nat.add_assoc]

theorem length_tidiedItems (s : Slot) (vs : List Json) (n : Nat) :
    (tidiedItems s n vs).length = vs.length := by
  induction vs generalizing n with
  | nil => rfl
  | cons v vs ih => rw [tidiedItems, List.length_cons, List.length_cons, ih]

theorem tidiedItems_eq_map {s t : Slot} (h : ∀ i, s.item i = t) (vs : List Json) (n : Nat) :
    tidiedItems s n vs = vs.map (tidied t) := by
  induction vs generalizing n with
  | nil => rfl
  | cons v vs ih => rw [tidiedItems, h n, ih, List.map_cons]

theorem find?_tidiedMembers {s : Slot} {keep : String → Bool} {k : String} (hk : keep k = true)
    (ms : List (String × Json)) : (tidiedMembers s keep ms).find? (fun m => m.1 = k) =
      (ms.find? fun m => m.1 = k).map (tidiedMember s) := by
  induction ms with
  | nil => rfl
  | cons m ms ih =>
    by_cases hm : m.1 = k
    · simp [tidiedMembers, hm, hk, tidiedMember]
    · by_cases hkeep : keep m.1 = true
      · simp [tidiedMembers, hm, hkeep, ih]
      · simp [tidiedMembers, hm, hkeep, ih]

theorem tidied_obj_eq_self {s : Slot} {ms : List (String × Json)} (hkeeps : ∀ k, s.keeps ms k)
    (h : ∀ m ∈ ms, tidied (s.member m.1) m.2 = m.2) : tidied s (.obj ms) = .obj ms := by
  have hsame : ∀ m ∈ ms, tidiedMember s m = m := fun m hm => Prod.ext rfl (h m hm)
  rw [tidied, tidiedMembers_eq, List.filter_eq_self.mpr fun m _ => hkeeps m.1,
    List.map_congr_left hsame, List.map_id']

theorem tidied_arr_eq_self {s : Slot} {items : List Json}
    (h : ∀ v ∈ items, ∀ i, tidied (s.item i) v = v) : tidied s (.arr items) = .arr items := by
  rw [tidied]
  congr 1
  refine List.ext_getElem? fun i => ?_
  rw [getElem?_tidiedItems]
  cases hv : items[i]? with
  | none => rfl
  | some v => rw [Option.map_some, h v (List.mem_of_getElem? hv)]

/-- Nothing is left out of a value in which no record stands. -/
theorem tidied_plain (j : Json) : tidied .plain j = j := by
  induction j using Json.of_parts with
  | null | bool | int | float | str => rfl
  | arr items ih => exact tidied_arr_eq_self fun v hv _ => ih v hv
  | obj ms ih => exact tidied_obj_eq_self (fun _ => rfl) ih

theorem tidiedMember_plain {s : Slot} {m : String × Json} (h : s.member m.1 = .plain) :
    tidiedMember s m = m := by
  rw [tidiedMember, h, tidied_plain]

theorem zip_tidiedItems {s : Slot} {ks : List String} {n : Nat}
    (h : ∀ i k, ks[i]? = some k → s.item (n + i) = s.member k) (vs : List Json) :
    ks.zip (tidiedItems s n vs) = (ks.zip vs).map (tidiedMember s) := by
  induction ks generalizing n vs with
  | nil => rfl
  | cons k ks ih =>
    cases vs with
    | nil => rfl
    | cons v vs =>
      have hitem : s.item n = s.member k := h 0 k rfl
      have hrest : ∀ i k, ks[i]? = some k → s.item (n + 1 + i) = s.member k := by
        intro i k hk
        rw [Nat.add_right_comm]
        exact h (i + 1) k hk
      rw [tidiedItems, List.zip_cons_cons, ih hrest, List.zip_cons_cons, List.map_cons, hitem]
      rfl

/-! ### The keys of a tidied value -/

namespace Part

theorem given_tidiedMembers {keep : String → Bool} (hk : keep "action" = true)
    (ms : List (String × Json)) : given (tidiedMembers (.one action) keep ms) = given ms := by
  rw [given, given, find?_tidiedMembers hk]
  cases hm : ms.find? fun m => m.1 = "action" with
  | none => rfl
  | some m =>
    have hkey : m.1 = "action" := by simpa using List.find?_some hm
    rw [Option.map_some, tidiedMember_plain (by rw [hkey]; rfl)]

/-- A tidied object has the keys that are defined in it before. -/
theorem keys_tidiedMembers (p : Part) (ms : List (String × Json)) :
    p.keys (tidiedMembers (.one p) ((Slot.one p).keeps ms) ms) = p.keys ms := by
  rw [keys, keys]
  split
  · rename_i hp
    subst hp
    have hkeep : (Slot.one action).keeps ms "action" = true := by simp [Slot.keeps, keys, fields]
    rw [given_tidiedMembers hkeep]
  · rfl

end Part

/-- A tidied value has no undefined keys but those that are faults. -/
theorem mem_keys_of_contains_tidied {s : Slot} {j : Json} {p : Part} {ms : List (String × Json)}
    (h : Contains s (tidied s j) p ms) (hp : p.strict = false) : ∀ m ∈ ms, m.1 ∈ p.keys ms := by
  generalize hj : tidied s j = j' at h
  -- on the way down to the object the value that was tidied is taken apart as well
  induction h generalizing j with
  | @here p ms =>
    cases j with
    | obj ms₀ =>
      rw [tidied] at hj
      cases hj
      intro m hm
      obtain ⟨m₀, -, hkeep, rfl⟩ := mem_tidiedMembers.mp hm
      rw [Part.keys_tidiedMembers]
      rw [Slot.keeps, hp, Bool.false_or, decide_eq_true_iff] at hkeep
      exact hkeep
    | null | bool | int | float | str | arr => cases hj
  | member hm _ ih =>
    cases j with
    | obj ms₀ =>
      rw [tidied] at hj
      cases hj
      obtain ⟨m₀, -, -, rfl⟩ := mem_tidiedMembers.mp hm
      exact ih hp rfl
    | null | bool | int | float | str | arr => cases hj
  | item hv _ ih =>
    cases j with
    | arr items =>
      rw [tidied] at hj
      cases hj
      rw [getElem?_tidiedItems, Nat.zero_add] at hv
      obtain ⟨v₀, -, rfl⟩ := Option.map_eq_some_iff.mp hv
      exact ih hp rfl
    | null | bool | int | float | str | obj => cases hj

/-! ### Where an undefined key is a fault -/

/-- The keys of the records in which an undefined key is a fault are defined. -/
def Faultless (s : Slot) (j : Json) : Prop :=
  ∀ p ms, Contains s j p ms → p.strict = true → ∀ m ∈ ms, m.1 ∈ p.keys ms

/-- A slot for no record, or only for records in which an undefined key is no fault. -/
def Slot.lenient : Slot → Bool
  | plain => true
  | one p | list p | map p => !p.strict

theorem Part.lenient_of_mem {p : Part} (hp : p.strict = false) :
    ∀ e ∈ p.fields, e.2.lenient = true := by
  revert hp
  cases p <;> decide

namespace Slot

theorem lenient_member {s : Slot} (h : s.lenient = true) (k : String) :
    (s.member k).lenient = true := by
  cases s with
  | plain | list => rfl
  | map p => exact h
  | one p =>
    rcases member_one p k with hplain | hmem
    · rw [hplain]; rfl
    · exact Part.lenient_of_mem (by simpa [lenient] using h) _ hmem

theorem lenient_item {s : Slot} (h : s.lenient = true) (i : Nat) : (s.item i).lenient = true := by
  cases s with
  | plain | map => rfl
  | list p => exact h
  | one p =>
    cases he : p.fields[i]? with
    | none => rw [item, he]; rfl
    | some e => rw [item_one he]; exact lenient_member h e.1

end Slot

/-- Inside a record in which an undefined key is no fault it is nowhere a fault. -/
theorem faultless_of_lenient {s : Slot} {j : Json} (h : s.lenient = true) : Faultless s j := by
  intro p ms hin hp
  exfalso
  induction hin with
  | here => simp [Slot.lenient, hp] at h
  | member _ _ ih => exact ih (Slot.lenient_member h _) hp
  | item _ _ ih => exact ih (Slot.lenient_item h _) hp

theorem faultless_obj {s : Slot} {ms : List (String × Json)}
    (htop : ∀ p, s = .one p → p.strict = true → ∀ m ∈ ms, m.1 ∈ p.keys ms)
    (h : ∀ m ∈ ms, Faultless (s.member m.1) m.2) : Faultless s (.obj ms) := by
  intro p below hin hp
  cases hin with
  | here => exact htop p rfl hp
  | member hm hin => exact h _ hm p below hin hp

theorem faultless_arr {s : Slot} {items : List Json}
    (h : ∀ i v, items[i]? = some v → Faultless (s.item i) v) : Faultless s (.arr items) := by
  intro p below hin hp
  cases hin with
  | item hv hin => exact h _ _ hv p below hin hp

end PageFormat

end FormPage
