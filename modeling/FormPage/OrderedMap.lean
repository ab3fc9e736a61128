/-!
Finite maps that remember the order in which their keys were first added. `get?_insert` and
`get?_erase` say what a write does to every look-up; an insertion at a present key keeps its place,
and an erasure keeps the order of the rest.
-/

namespace FormPage

/-- A list of entries in which no key occurs twice. -/
structure OrderedMap (κ ν : Type) where
  /-- The entries, oldest key first. -/
  entries : List (κ × ν)
  /-- No key occurs twice. -/
  nodup : (entries.map Prod.fst).Nodup
deriving DecidableEq, Repr

namespace OrderedMap

variable {κ ν : Type} [DecidableEq κ]

/-- The value of a key in a list of entries. -/
def lookup (k : κ) : List (κ × ν) → Option ν
  | [] => none
  | e :: rest => if e.1 = k then some e.2 else lookup k rest

/-- Writes a value in place, or at the end for a new key. -/
def put (k : κ) (v : ν) : List (κ × ν) → List (κ × ν)
  | [] => [(k, v)]
  | e :: rest => if e.1 = k then (k, v) :: rest else e :: put k v rest

/-- The entries of every other key. -/
def without (k : κ) (es : List (κ × ν)) : List (κ × ν) := es.filter fun e => e.1 ≠ k

theorem mem_keys_put (k k' : κ) (v : ν) (es : List (κ × ν)) :
    k' ∈ (put k v es).map Prod.fst ↔ k' = k ∨ k' ∈ es.map Prod.fst := by
  induction es with
  | nil => simp [put]
  | cons e rest ih =>
    by_cases h : e.1 = k
    · subst h; simp [put]
    · simp only [put, h, if_false, List.map_cons, List.mem_cons, ih]
      constructor
      · rintro (h' | h' | h') <;> simp [h']
      · rintro (h' | h' | h') <;> simp [h']

theorem nodup_put (k : κ) (v : ν) {es : List (κ × ν)} (h : (es.map Prod.fst).Nodup) :
    ((put k v es).map Prod.fst).Nodup := by
  induction es with
  | nil => simp [put]
  | cons e rest ih =>
    rw [List.map_cons, List.nodup_cons] at h
    by_cases hk : e.1 = k
    · subst hk; simpa [put] using h
    · simp only [put, hk, if_false, List.map_cons, List.nodup_cons]
      exact ⟨fun hm => ((mem_keys_put k e.1 v rest).1 hm).elim hk h.1, ih h.2⟩

theorem nodup_without (k : κ) {es : List (κ × ν)} (h : (es.map Prod.fst).Nodup) :
    ((without k es).map Prod.fst).Nodup :=
  List.Nodup.sublist (List.Sublist.map _ List.filter_sublist) h

/-- The map without entries. -/
def empty : OrderedMap κ ν := ⟨[], List.nodup_nil⟩

instance : EmptyCollection (OrderedMap κ ν) := ⟨empty⟩

instance : Inhabited (OrderedMap κ ν) := ⟨empty⟩

/-- The value of a key. -/
def get? (m : OrderedMap κ ν) (k : κ) : Option ν := lookup k m.entries

/-- Writes a value: a present key keeps its place, a new one goes to the end. -/
def insert (m : OrderedMap κ ν) (k : κ) (v : ν) : OrderedMap κ ν :=
  ⟨put k v m.entries, nodup_put k v m.nodup⟩

/-- Removes a key and keeps the order of the others. -/
def erase (m : OrderedMap κ ν) (k : κ) : OrderedMap κ ν :=
  ⟨without k m.entries, nodup_without k m.nodup⟩

/-- The map that results from writing entries one after the other. -/
def ofList (es : List (κ × ν)) : OrderedMap κ ν := es.foldl (fun m e => m.insert e.1 e.2) empty

/-- Whether the map has no entry. -/
def isEmpty (m : OrderedMap κ ν) : Bool := m.entries.isEmpty

/-- The number of entries. -/
def size (m : OrderedMap κ ν) : Nat := m.entries.length

omit [DecidableEq κ] in
/-- Two maps with the same entries in the same order are equal. -/
@[ext] theorem ext {m₁ m₂ : OrderedMap κ ν} (h : m₁.entries = m₂.entries) : m₁ = m₂ := by
  cases m₁; cases m₂; cases h; rfl

@[simp] theorem get?_empty (k : κ) : (empty : OrderedMap κ ν).get? k = none := rfl

theorem lookup_put (k k' : κ) (v : ν) (es : List (κ × ν)) :
    lookup k' (put k v es) = if k' = k then some v else lookup k' es := by
  induction es with
  | nil => simp [put, lookup, eq_comm]
  | cons e rest ih => grind [put, lookup]

/-- A write is seen at its key and nowhere else. -/
theorem get?_insert (m : OrderedMap κ ν) (k k' : κ) (v : ν) :
    (m.insert k v).get? k' = if k' = k then some v else m.get? k' :=
  lookup_put k k' v m.entries

theorem lookup_without (k k' : κ) (es : List (κ × ν)) :
    lookup k' (without k es) = if k' = k then none else lookup k' es := by
  induction es with
  | nil => simp [without, lookup]
  | cons e rest ih =>
    have ih' : lookup k' (rest.filter fun e => e.1 ≠ k) = if k' = k then none else lookup k' rest :=
      ih
    by_cases h : e.1 = k
    · simp only [without, List.filter_cons, h, ne_eq, not_true, decide_false, Bool.false_eq_true,
        if_false, lookup]
      grind
    · simp only [without, List.filter_cons, h, ne_eq, not_false_iff, decide_true, if_true, lookup]
      grind

/-- An erasure is seen at its key and nowhere else. -/
theorem get?_erase (m : OrderedMap κ ν) (k k' : κ) :
    (m.erase k).get? k' = if k' = k then none else m.get? k' :=
  lookup_without k k' m.entries

end OrderedMap

end FormPage
