import FormPage.Toml.Scalar

/-!
Reading TOML documents. Each line is a header, a key with its value, or empty. A table is defined by
one header, implied by the header of a table below it, or made by the dotted keys of one table; no
key is given twice, and none of these ways mixes with another.
-/

namespace FormPage.Toml

/-- How a table came to be. -/
inductive Origin where
  /-- By a header of its own. -/
  | header
  /-- By the header of a table below it. -/
  | implied
  /-- By a dotted key. -/
  | dotted
deriving DecidableEq, Repr

/-- What stands under a key. -/
inductive Item where
  | value (j : Json)
  | table (origin : Origin) (entries : List (String × Item))
  | tables (elements : List (List (String × Item)))
deriving Inhabited

/-- The content of a table. -/
abbrev Entries : Type := List (String × Item)

/-- The item of a key. -/
def find? (k : String) (es : Entries) : Option Item := (es.find? fun e => e.1 = k).map (·.2)

/-- Writes an item in place, or at the end for a new key. -/
def put (k : String) (item : Item) : Entries → Entries
  | [] => [(k, item)]
  | e :: rest => if e.1 = k then (k, item) :: rest else e :: put k item rest

/-- Changes the table at the path of a header, with the tables on the way implied. Of an array of
tables the last one is meant. -/
def atHeader (change : Entries → Option Entries) : List String → Entries → Option Entries
  | [], es => change es
  | k :: ks, es =>
    match find? k es with
    | none => (atHeader change ks []).map fun inner => put k (.table .implied inner) es
    | some (.table origin inner) =>
      (atHeader change ks inner).map fun inner => put k (.table origin inner) es
    | some (.tables elements) => do
      let inner ← atHeader change ks (elements.getLast?.getD [])
      return put k (.tables (elements.dropLast ++ [inner])) es
    | some (.value _) => none

/-- Defines the table of a header, which must be new or only implied so far. -/
def defineTable (k : String) (es : Entries) : Option Entries :=
  match find? k es with
  | none => some (put k (.table .header []) es)
  | some (.table .implied inner) => some (put k (.table .header inner) es)
  | some _ => none

/-- Adds a table to the array of a header. -/
def addElement (k : String) (es : Entries) : Option Entries :=
  match find? k es with
  | none => some (put k (.tables [[]]) es)
  | some (.tables elements) => some (put k (.tables (elements ++ [[]])) es)
  | some _ => none

/-- Sets the value of a key that must be new; `origin` is that of the table it goes into. -/
def setValue (k : String) (v : Json) (origin : Origin) (below : Bool) : List String → Entries →
    Option Entries
  | [], es =>
    if below && origin ≠ .dotted then none
    else if (find? k es).isSome then none
    else some (put k (.value v) es)
  | p :: ps, es =>
    match find? p es with
    | none => (setValue k v .dotted true ps []).map fun inner => put p (.table .dotted inner) es
    | some (.table .header _) => none
    | some (.table origin inner) =>
      (setValue k v origin true ps inner).map fun inner => put p (.table origin inner) es
    | some (.tables elements) => do
      let inner ← setValue k v .header true ps (elements.getLast?.getD [])
      return put p (.tables (elements.dropLast ++ [inner])) es
    | some (.value _) => none

mutual

/-- The JSON value of an item. -/
def Item.toJson : Item → Json
  | .value j => j
  | .table _ es => Json.ofMembers (entriesToJson es)
  | .tables elements => .arr (elementsToJson elements)

/-- The JSON members of a table. -/
def entriesToJson : List (String × Item) → List (String × Json)
  | [] => []
  | (k, item) :: rest => (k, item.toJson) :: entriesToJson rest

/-- The JSON values of an array of tables. -/
def elementsToJson : List (List (String × Item)) → List Json
  | [] => []
  | es :: rest => Json.ofMembers (entriesToJson es) :: elementsToJson rest

end

/-- The rest after a comment, which ends with its line; a carriage return belongs to the line end
that follows it. -/
def skipComment : List Char → Option (List Char)
  | '#' :: rest =>
    let body := rest.takeWhile fun c => c ≠ '\n'
    let after := rest.dropWhile fun c => c ≠ '\n'
    let text := if body.getLast? = some '\r' && !after.isEmpty then body.dropLast else body
    if text.any isControl then none else some after
  | rest => some rest

/-- The rest after the end of a line, with a comment in front of it; the text may also end there. -/
def finishLine (cs : List Char) : Option (List Char) := do
  let rest ← skipComment (skipBlanks cs)
  if rest.isEmpty then some [] else lineEnd? rest

/-- Drops blanks, comments and line ends between the items of an array. -/
def skipLines : Nat → List Char → Option (List Char)
  | 0, _ => none
  | limit + 1, cs => do
    let rest ← skipComment (skipBlanks cs)
    match lineEnd? rest with
    | some rest => skipLines limit rest
    | none => some rest

/-- Reads the items of an array after its opening bracket. -/
def readItems (item : List Char → Option (Json × List Char)) :
    Nat → List Char → Option (List Json × List Char)
  | 0, _ => none
  | limit + 1, cs => do
    let rest ← skipLines (cs.length + 1) cs
    match rest with
    | ']' :: rest => return ([], rest)
    | _ =>
      let (v, rest) ← item rest
      let rest ← skipLines (rest.length + 1) rest
      match rest with
      | ',' :: rest =>
        let (vs, rest) ← readItems item limit rest
        return (v :: vs, rest)
      | ']' :: rest => return ([v], rest)
      | _ => none

/-- Reads the pairs of an inline table after its opening brace, at least one. -/
def readPairs (item : List Char → Option (Json × List Char)) :
    Nat → Entries → List Char → Option (Entries × List Char)
  | 0, _, _ => none
  | limit + 1, es, cs => do
    let (key, rest) ← readKey cs
    match rest with
    | '=' :: rest =>
      let (v, rest) ← item (skipBlanks rest)
      let es ← setValue (key.getLast?.getD "") v .header false key.dropLast es
      match skipBlanks rest with
      | ',' :: rest => readPairs item limit es rest
      | '\x7d' :: rest => return (es, rest)
      | _ => none
    | _ => none

/-- Reads a value in which arrays and inline tables lie at most `levels` deep. -/
def readValue (levels : Nat) (cs : List Char) : Option (Json × List Char) :=
  match cs with
  | '"' :: _ => (readString cs).map fun r => (.str (String.ofList r.1), r.2)
  | '\'' :: _ => (readString cs).map fun r => (.str (String.ofList r.1), r.2)
  | '[' :: rest =>
    match levels with
    | 0 => none
    | levels + 1 =>
      (readItems (readValue levels) (rest.length + 1) rest).map fun r => (.arr r.1, r.2)
  | '\x7b' :: rest =>
    match levels with
    | 0 => none
    | levels + 1 =>
      match skipBlanks rest with
      | '\x7d' :: rest => some (.obj [], rest)
      | rest =>
        (readPairs (readValue levels) (rest.length + 1) [] rest).map fun r =>
          (Json.ofMembers (entriesToJson r.1), r.2)
  | cs => readWord cs

/-- Reads the lines of a document into its entries; `header` is the table that is being filled. -/
def readLines : Nat → List String → Entries → List Char → Option Entries
  | 0, _, _, _ => none
  | _ + 1, _, es, [] => some es
  | limit + 1, header, es, c :: rest =>
    match skipBlanks (c :: rest) with
    | '[' :: '[' :: rest => do
      let (key, rest) ← readKey rest
      match rest with
      | ']' :: ']' :: rest =>
        let es ← atHeader (addElement (key.getLast?.getD "")) key.dropLast es
        readLines limit key es (← finishLine rest)
      | _ => none
    | '[' :: rest => do
      let (key, rest) ← readKey rest
      match rest with
      | ']' :: rest =>
        let es ← atHeader (defineTable (key.getLast?.getD "")) key.dropLast es
        readLines limit key es (← finishLine rest)
      | _ => none
    | line =>
      match finishLine line with
      | some rest => readLines limit header es rest
      | none => do
        let (key, rest) ← readKey line
        match rest with
        | '=' :: rest =>
          let (v, rest) ← readValue deepest (skipBlanks rest)
          let set := setValue (key.getLast?.getD "") v .header false key.dropLast
          readLines limit header (← atHeader set header es) (← finishLine rest)
        | _ => none

/-- The value that a document holds. -/
def parse? (text : String) : Option Json := do
  let cs := if text.toList.head? = some '\uFEFF' then text.toList.drop 1 else text.toList
  let es ← readLines (cs.length + 1) [] [] cs
  return Json.ofMembers (entriesToJson es)

end FormPage.Toml
