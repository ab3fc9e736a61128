import FormPage.Number.Binary64

/-!
JSON values. The members of an object are kept in the order of their keys, each key once;
`ofMembers` brings members into that form, and of two members with one key the later one stays.
Numbers are integers or numbers of the format binary64, so `1` and `1.0` are different values.
-/

namespace FormPage

/-- A JSON value. -/
inductive Json where
  | null
  | bool (b : Bool)
  | int (n : Int)
  | float (x : Binary64)
  | str (s : String)
  | arr (items : List Json)
  | obj (members : List (String × Json))
deriving Repr, Inhabited

namespace Json

/-- Writes a member into a list in the order of keys. -/
def putMember (k : String) (v : Json) : List (String × Json) → List (String × Json)
  | [] => [(k, v)]
  | m :: rest =>
    if k < m.1 then (k, v) :: m :: rest
    else if m.1 = k then (k, v) :: rest
    else m :: putMember k v rest

/-- The object of some members, of which the later ones win. -/
def ofMembers (ms : List (String × Json)) : Json :=
  .obj (ms.foldl (fun acc m => putMember m.1 m.2 acc) [])

/-- The member of an object with a key. -/
def member? (j : Json) (k : String) : Option Json :=
  match j with
  | .obj ms => (ms.find? fun m => m.1 = k).map (·.2)
  | _ => none

mutual

/-- Whether two values are the same. -/
def same : Json → Json → Bool
  | .null, .null => true
  | .bool a, .bool b => a = b
  | .int a, .int b => a = b
  | .float a, .float b => a = b
  | .str a, .str b => a = b
  | .arr a, .arr b => sameItems a b
  | .obj a, .obj b => sameMembers a b
  | _, _ => false

/-- Whether two lists of values are the same. -/
def sameItems : List Json → List Json → Bool
  | [], [] => true
  | a :: as, b :: bs => same a b && sameItems as bs
  | _, _ => false

/-- Whether two lists of members are the same. -/
def sameMembers : List (String × Json) → List (String × Json) → Bool
  | [], [] => true
  | (k, a) :: as, (l, b) :: bs => k = l && same a b && sameMembers as bs
  | _, _ => false

end

instance : BEq Json := ⟨same⟩

end Json

end FormPage
