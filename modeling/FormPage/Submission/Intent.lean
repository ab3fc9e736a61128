/-!
Submission intents: the record of which control asked for what, written as the control's name, a
colon and the value. Reading splits at the first colon, so `ofText?_text` holds for every control
without one.
-/

namespace FormPage

/-- Which control asked for what. -/
structure Intent where
  control : String
  value : String
deriving DecidableEq, Repr

namespace Intent

/-- The characters of an intent. -/
def chars (i : Intent) : List Char := i.control.toList ++ ':' :: i.value.toList

/-- The text of an intent. -/
def text (i : Intent) : String := String.ofList i.chars

/-- The parts of a text before and after its first colon. -/
def splitAtColon : List Char → Option (List Char × List Char)
  | [] => none
  | c :: rest =>
    if c = ':' then some ([], rest) else (splitAtColon rest).map fun s => (c :: s.1, s.2)

/-- The intent that a text records, if it has a colon. -/
def ofText? (raw : String) : Option Intent :=
  (splitAtColon raw.toList).map fun s => ⟨String.ofList s.1, String.ofList s.2⟩

/-- What is said about a text that records no intent. -/
def missingColon (raw : String) : String := raw ++ ": missing ':' between control and value"

theorem splitAtColon_append {cs : List Char} (h : ':' ∉ cs) (rest : List Char) :
    splitAtColon (cs ++ ':' :: rest) = some (cs, rest) := by
  induction cs with
  | nil => rfl
  | cons c cs ih =>
    rw [List.mem_cons, not_or] at h
    simp [splitAtColon, ih h.2, Ne.symm h.1]

/-- An intent whose control has no colon is read back from its text. -/
theorem ofText?_text (i : Intent) (h : ':' ∉ i.control.toList) : ofText? i.text = some i := by
  simp [ofText?, text, chars, splitAtColon_append h]

end Intent

end FormPage
