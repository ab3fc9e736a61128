import FormPage.Json.Basic
import FormPage.Number.Shortest
import FormPage.Text.Integer
import FormPage.Text.Quoted

/-!
Why a JSON value is not what a page document needs in its place, and how each such fault is told.
-/

namespace FormPage

/-- What is wanted in a place of a page document. -/
inductive Wanted where
  | string | word | map | sequence
  /-- One of some names. -/
  | variant
  /-- The name of an action. -/
  | actionName
  /-- A whole action. -/
  | action
  /-- Nothing, behind a name that is written as a key. -/
  | unit
  /-- A record with a name. -/
  | record (name : String)
deriving DecidableEq, Repr

namespace Wanted

/-- How a message calls what is wanted. -/
def text : Wanted → String
  | string => "a string"
  | word => "i32"
  | map => "a map"
  | sequence => "a sequence"
  | variant => "string or map"
  | actionName => "variant identifier"
  | action => "internally tagged enum Action"
  | unit => "unit"
  | record name => "struct " ++ name

end Wanted

/-- A fault of a page document. -/
inductive DecodeError where
  /-- A value of another type. -/
  | wrongType (found : Json) (wanted : Wanted)
  /-- An integer beyond 32 bits. -/
  | beyondWord (n : Int)
  /-- An object in place of a name that does not have just one member. -/
  | notOneKey
  /-- A required member that is not there. -/
  | missingField (name : String)
  /-- A member that the record does not have. -/
  | unknownField (name : String) (known : List String)
  /-- A name that is none of the known ones. -/
  | unknownVariant (name : String) (known : List String)
  /-- A record written as an array that ends before a required field. -/
  | tooFewItems (count : Nat) (record : String) (fields : Nat)
  /-- A record written as an array with more items than fields. -/
  | tooManyItems (count : Nat)
  /-- An action written as an array with more items than it takes. -/
  | tooManyArguments (count taken : Nat)
deriving Repr

namespace DecodeError

/-- How a message calls the value that was found. -/
def describe : Json → String
  | .null => "null"
  | .bool b => "boolean `" ++ (if b then "true" else "false") ++ "`"
  | .int n => "integer `" ++ Text.showInt n ++ "`"
  | .float x => "floating point `" ++ x.text ++ "`"
  | .str s => "string " ++ Text.quoted s
  | .arr _ => "sequence"
  | .obj _ => "map"

/-- The names that a message offers. -/
def oneOf (names : List String) : String :=
  "expected one of " ++ ", ".intercalate (names.map fun n => "`" ++ n ++ "`")

/-- A number of things. -/
def counted (n : Nat) : String :=
  Text.showNat n ++ (if n = 1 then " element" else " elements")

/-- The wording of a fault. -/
def message : DecodeError → String
  | wrongType found wanted => "invalid type: " ++ describe found ++ ", expected " ++ wanted.text
  | beyondWord n => "invalid value: " ++ describe (.int n) ++ ", expected i32"
  | notOneKey => "invalid value: map, expected map with a single key"
  | missingField name => "missing field `" ++ name ++ "`"
  | unknownField name known => "unknown field `" ++ name ++ "`, " ++ oneOf known
  | unknownVariant name known => "unknown variant `" ++ name ++ "`, " ++ oneOf known
  | tooFewItems count record fields =>
    "invalid length " ++ Text.showNat count ++ ", expected " ++ record ++ " with " ++ counted fields
  | tooManyItems count =>
    "invalid length " ++ Text.showNat count ++ ", expected fewer elements in array"
  | tooManyArguments count taken =>
    "invalid length " ++ Text.showNat count ++ ", expected " ++ counted taken ++ " in sequence"

end DecodeError

end FormPage
