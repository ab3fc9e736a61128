import FormPage.Yaml.Node
import FormPage.Yaml.Text

/-!
Reading YAML documents. In block style the column of its first token decides what a node belongs to:
a list holds the items at one column, a mapping the keys at one column, and what they hold stands
further right. In flow style brackets decide. A key has to stand on one line with its colon.
-/

namespace FormPage.Yaml

/-- The longest key that is recognised by the colon behind it, in bytes. -/
def longestKey : Nat := 1024

/-- Whether a text from one place to another can be a key, given the place of its colon. -/
def fitsKey (start colon : Cursor) : Bool :=
  let key := start.rest.take (colon.column - start.column)
  colon.line = start.line && (String.ofList key).utf8ByteSize ≤ longestKey

/-- A text in quotes, whose opening quote stands here. -/
def quotedText (c : Cursor) : Option (List Char × Cursor) :=
  match c.rest with
  | '\'' :: _ => singleFrom (c.rest.length + 1) c.next
  | _ => doubleFrom (c.rest.length + 1) c.next

/-- The node of a text that stands for itself. -/
def quotedNode (r : List Char × Cursor) : Node × Cursor := (.scalar false (String.ofList r.1), r.2)

/-- A scalar that is not a block. -/
def scalarAt (flow : Bool) (indent : Int) (c : Cursor) : Option (Node × Cursor) :=
  match c.rest with
  | '\'' :: _ => (quotedText c).map quotedNode
  | '"' :: _ => (quotedText c).map quotedNode
  | _ => (plainText flow indent c).map fun r => (.scalar true (String.ofList r.1), r.2)

/-- The value of a pair in flow style, if a colon stands here. It can be left out in front of a
comma or of the closing bracket. -/
def flowValue (content : Cursor → Option (Node × Cursor)) (close : Char) (c : Cursor) :
    Option (Option Node × Cursor) :=
  if c.peek? = some ':' then do
    let c := c.next.flowGap
    if c.peek? = some ',' || c.peek? = some close then return (some .nothing, c)
    else
      let (v, c) ← content c
      return (some v, c.flowGap)
  else some (none, c)

/-- The node of an entry in flow style that may be a key, and its value, if it has one. -/
def flowEntry (content value : Cursor → Option (Node × Cursor)) (close : Char) (c : Cursor) :
    Option (Node × Option Node × Cursor) := do
  let (n, after) ← content c
  let colon := after.flowGap
  let (v, c) ← if fitsKey c colon then flowValue value close colon else some (none, colon)
  return (n, v, c)

/-- The pair of a key behind a question mark, in a list in flow style. A key that is left out takes
the indicator after it along. -/
def markedItem (value : Cursor → Option (Node × Cursor)) (c : Cursor) : Option (Node × Cursor) := do
  let start := c.flowGap
  let (k, c) ←
    if start.peek? = some ':' || start.peek? = some ',' then some (.nothing, start.next)
    else value start
  let (v, c) ← flowValue value ']' c.flowGap
  return (.map [(k, v.getD .nothing)], c)

/-- The items of a list in flow style, after its opening bracket; `content` reads one node, and
`value` one inside a mapping. A pair is a mapping by itself. -/
def flowItems (content : Cursor → Option (Node × Cursor))
    (value : Option (Cursor → Option (Node × Cursor))) :
    Nat → Cursor → Option (List Node × Cursor)
  | 0, _ => none
  | limit + 1, c => do
    let start := c.flowGap
    if start.peek? = some ']' then return ([], start.next)
    else
      let (n, c) ←
        if start.peek? = some '?' then do markedItem (← value) start.next
        else do
          let (n, v, c) ← flowEntry content (value.getD fun _ => none) ']' start
          match v, value with
          | none, _ => pure (n, c)
          | some v, some _ => pure (.map [(n, v)], c)
          | some _, none => none
      match c.peek? with
      | some ',' =>
        let (ns, c) ← flowItems content value limit c.next
        return (n :: ns, c)
      | some ']' => return ([n], c.next)
      | _ => none

/-- The pairs of a mapping in flow style, after its opening brace. A key may stand behind a question
mark, and then be left out or go over several lines. -/
def flowPairs (content : Cursor → Option (Node × Cursor)) :
    Nat → Cursor → Option (List (Node × Node) × Cursor)
  | 0, _ => none
  | limit + 1, c => do
    let start := c.flowGap
    if start.peek? = some '\x7d' then return ([], start.next)
    else
      let (k, v, c) ←
        if start.peek? = some '?' then do
          let start := start.next.flowGap
          let (k, c) ←
            if start.peek?.any [':', ',', '\x7d'].contains then some (.nothing, start)
            else content start
          let (v, c) ← flowValue content '\x7d' c.flowGap
          pure (k, v, c)
        else flowEntry content content '\x7d' start
      let pair := (k, v.getD .nothing)
      match c.peek? with
      | some ',' =>
        let (ps, c) ← flowPairs content limit c.next
        return (pair :: ps, c)
      | some '\x7d' => return ([pair], c.next)
      | _ => none

/-- A node without block style inside; collections lie at most `levels` deep. -/
def flowNode (flow : Bool) (levels : Nat) (indent : Int) (c : Cursor) : Option (Node × Cursor) :=
  if flow && c.atMarker then none
  else
    match c.rest, levels with
    | '[' :: _, levels + 1 =>
      let value := match levels with
        | 0 => none
        | deeper + 1 => some (flowNode true deeper indent)
      (flowItems (flowNode true levels indent) value (c.rest.length + 1) c.next).map fun r =>
        (.list r.1, r.2)
    | '\x7b' :: _, levels + 1 =>
      (flowPairs (flowNode true levels indent) (c.rest.length + 1) c.next).map fun r =>
        (.map r.1, r.2)
    | _, _ => scalarAt flow indent c

/-- Whether a block text stands here. -/
def startsBlock (c : Cursor) : Bool := c.peek? = some '|' || c.peek? = some '>'

/-- Whether nothing more can belong to a collection at a column. -/
def leaves (column : Nat) (c : Cursor) : Bool := c.atEnd || c.atMarker || c.column < column

mutual

/-- The node at a token, inside a collection at the column `indent`. A key may begin here only if
`keyAllowed` says so; `compact` tells that a list may stand at the column of the collection itself,
as under a key. A block text may always stand there. -/
def blockNode : Nat → Nat → Int → Bool → Bool → Cursor → Option (Node × Cursor)
  | 0, _, _, _, _, _ => none
  | limit + 1, levels, indent, keyAllowed, compact, c =>
    if c.atEnd || c.atMarker then some (.nothing, c)
    else if (c.column : Int) < indent || ((c.column : Int) = indent && !startsBlock c) then
      if compact && (c.column : Int) = indent && c.startsWord '-' then
        match levels with
        | 0 => none
        | levels + 1 => (listItems limit levels c.column true c).map fun r => (.list r.1, r.2)
      else some (.nothing, c)
    else if c.startsWord '-' then
      match keyAllowed, levels with
      | true, levels + 1 => (listItems limit levels c.column false c).map fun r => (.list r.1, r.2)
      | _, _ => none
    else if c.startsWord '?' then
      match keyAllowed, levels with
      | true, levels + 1 => (mapPairs limit levels c.column c).map fun r => (.map r.1, r.2)
      | _, _ => none
    else
      match c.rest with
      | '|' :: _ => (blockText true indent c.next).map quotedNode
      | '>' :: _ => (blockText false indent c.next).map quotedNode
      | _ => do
        let (n, after) ← flowNode false levels indent c
        let colon := after.skipWhile isBlank
        if keyAllowed && colon.startsWord ':' && fitsKey c colon then
          match levels with
          | 0 => none
          | levels + 1 => (mapPairs limit levels c.column c).map fun r => (.map r.1, r.2)
        else return (n, after)

/-- The items of a list from its dash on. A list at the column of the key above it ends at the next
key. -/
def listItems : Nat → Nat → Nat → Bool → Cursor → Option (List Node × Cursor)
  | 0, _, _, _, _ => none
  | limit + 1, levels, column, compact, c => do
    let (start, keyAllowed) ← c.next.gap true
    let (n, c) ← blockNode limit levels column keyAllowed false start
    let (c, _) ← c.gap false
    if leaves column c then return ([n], c)
    else if c.column = column && c.startsWord '-' then
      let (ns, c) ← listItems limit levels column compact c
      return (n :: ns, c)
    else if c.column = column && compact then return ([n], c)
    else none

/-- The pairs of a mapping from its first key on. -/
def mapPairs : Nat → Nat → Nat → Cursor → Option (List (Node × Node) × Cursor)
  | 0, _, _, _ => none
  | limit + 1, levels, column, c => do
    let (k, v, c) ←
      if c.startsWord '?' then do
        let (start, keyAllowed) ← c.next.gap true
        let (k, c) ← blockNode limit levels column keyAllowed true start
        let (c, _) ← c.gap false
        if !leaves column c && c.column = column && c.startsWord ':' then
          let (start, keyAllowed) ← c.next.gap true
          let (v, c) ← blockNode limit levels column keyAllowed true start
          pure (k, v, c)
        else pure (k, .nothing, c)
      else do
        let (k, after) ← flowNode false levels column c
        let colon := after.skipWhile isBlank
        if colon.startsWord ':' && fitsKey c colon then
          let (start, keyAllowed) ← colon.next.gap false
          let (v, c) ← blockNode limit levels column keyAllowed true start
          pure (k, v, c)
        else none
    let (c, _) ← c.gap false
    if leaves column c then return ([(k, v)], c)
    else if c.column = column then
      let (ps, c) ← mapPairs limit levels column c
      return ((k, v) :: ps, c)
    else none

end

/-- How deep collections may lie. -/
def documentLevels : Nat := 128

/-- Goes over the marks at the end of a document. -/
def skipEnds : Nat → Cursor → Option Cursor
  | 0, _ => none
  | limit + 1, c =>
    if c.atMarker && c.peek? = some '.' then do skipEnds limit (← (c.skip 3).gap false).1
    else some c

/-- The node of a text that holds one document. -/
def document? (cs : List Char) : Option Node := do
  let (start, keyAllowed) ← Cursor.gap true { rest := cs }
  let (n, c) ←
    if start.atMarker then
      if start.peek? = some '-' then do
        let (start, keyAllowed) ← (start.skip 3).gap false
        blockNode (2 * cs.length + 2) documentLevels (-1) keyAllowed false start
      else none
    else blockNode (2 * cs.length + 2) documentLevels (-1) keyAllowed false start
  let (c, _) ← c.gap false
  let c ← skipEnds (cs.length + 1) c
  if c.atEnd then return n else none

/-- The value that a text holds. -/
def parse? (text : String) : Option Json := do
  let cs := if text.toList.head? = some '\uFEFF' then text.toList.drop 1 else text.toList
  if cs.all isAllowed then (← document? (normalize cs)).toJson? else none

end FormPage.Yaml
