import FormPage.Text.Ascii
import FormPage.Yaml.Cursor

/-!
The texts of YAML: plain, in single and double quotes, and in blocks that keep or fold their lines.
Each function goes over a text and returns it with the place after it; `none` is a syntax error.
-/

namespace FormPage.Yaml

/-- What blanks and line ends stand for once folded, given the line ends among them: one line feed
is a space, and of more the first is left out, but a separator stays. -/
def foldBreaks : List Char → List Char
  | ['\n'] => [' ']
  | '\n' :: breaks => breaks
  | breaks => breaks

/-- Goes over blanks and line ends: what they stand for, and whether there was a line end. -/
def foldBlanks (c : Cursor) : List Char × Bool × Cursor :=
  let space := c.rest.takeWhile fun d => isBlank d || isBreak d
  let breaks := space.filter isBreak
  (if breaks.isEmpty then space else foldBreaks breaks, !breaks.isEmpty, c.skip space.length)

/-- A character that ends a word of a plain text in flow style. -/
def isFlowIndicator (c : Char) : Bool := c = ',' || c = '[' || c = ']' || c = '\x7b' || c = '\x7d'

/-- The length of the word of a plain text that begins here: a colon ends it only in front of a
blank, and in flow style brackets and commas end it, in front of which a colon is an error. -/
def plainWord (flow : Bool) : List Char → Option Nat
  | [] => some 0
  | d :: rest =>
    if isBlank d || isBreak d then some 0
    else if d = ':' && endsWord rest then some 0
    else if flow && isFlowIndicator d then some 0
    else if flow && d = ':' && rest.head?.any fun e => isFlowIndicator e || e = '?' then none
    else (plainWord flow rest).map (· + 1)

/-- Whether a tab stands in the indentation of a line among the blanks and line ends in front;
`column` is known from the first line end on. -/
def tabIndents (indent : Int) (column : Option Nat) : List Char → Bool
  | [] => false
  | d :: rest =>
    if isBreak d then tabIndents indent (some 0) rest
    else if !isBlank d then false
    else if d = '\t' && column.any fun n => (n : Int) ≤ indent then true
    else tabIndents indent (column.map (· + 1)) rest

/-- Goes over further words of a plain text and over the blanks and line ends after it; `indent` is
the column that its lines have to pass. -/
def plainFrom (flow : Bool) (indent : Int) : Nat → Cursor → Option (List Char × Cursor)
  | 0, c => some ([], c)
  | limit + 1, c => do
    let (blanks, newLine, after) := foldBlanks c
    if tabIndents indent none c.rest then none
    else if blanks.isEmpty || after.atEnd || after.atMarker || after.peek? = some '#' ||
        (newLine && !flow && (after.column : Int) ≤ indent) then
      some ([], after)
    else
      let length ← plainWord flow after.rest
      if length = 0 then some ([], after)
      else
        let (text, c) ← plainFrom flow indent limit (after.skip length)
        return (blanks ++ after.rest.take length ++ text, c)

/-- Whether a plain text can begin here. -/
def startsPlain (flow : Bool) : List Char → Bool
  | [] => false
  | d :: rest =>
    if d = '-' then !endsWord rest
    else if d = '?' || d = ':' then !flow && !endsWord rest
    else !(isBlank d || isBreak d || isFlowIndicator d || "#&*!|>'\"%@`".toList.contains d)

/-- Goes over a plain text and over the blanks and line ends after it. -/
def plainText (flow : Bool) (indent : Int) (c : Cursor) : Option (List Char × Cursor) :=
  if startsPlain flow c.rest then do
    let length ← plainWord flow c.rest
    let (text, after) ← plainFrom flow indent c.rest.length (c.skip length)
    return (c.rest.take length ++ text, after)
  else none

/-- Goes over a text in single quotes, after the first of them. -/
def singleFrom : Nat → Cursor → Option (List Char × Cursor)
  | 0, _ => none
  | limit + 1, c =>
    if c.atMarker then none
    else
      match c.rest with
      | [] => none
      | '\'' :: '\'' :: _ => (singleFrom limit (c.skip 2)).map fun r => ('\'' :: r.1, r.2)
      | '\'' :: _ => some ([], c.next)
      | d :: _ =>
        if isBlank d || isBreak d then
          let (blanks, _, after) := foldBlanks c
          (singleFrom limit after).map fun r => (blanks ++ r.1, r.2)
        else (singleFrom limit c.next).map fun r => (d :: r.1, r.2)

/-- The character that a letter stands for after a backslash. -/
def escaped? (c : Char) : Option Char :=
  match c with
  | '0' => some '\x00'
  | 'a' => some '\x07'
  | 'b' => some '\x08'
  | 't' => some '\t'
  | '\t' => some '\t'
  | 'n' => some '\n'
  | 'v' => some '\x0b'
  | 'f' => some '\x0c'
  | 'r' => some '\r'
  | 'e' => some '\x1b'
  | ' ' => some ' '
  | '"' => some '"'
  | '/' => some '/'
  | '\\' => some '\\'
  | 'N' => some '\u0085'
  | '_' => some '\u00a0'
  | 'L' => some '\u2028'
  | 'P' => some '\u2029'
  | _ => none

/-- How many digits the number of a character has after a letter. -/
def escapeDigits? (c : Char) : Option Nat :=
  match c with
  | 'x' => some 2
  | 'u' => some 4
  | 'U' => some 8
  | _ => none

/-- The character with a number, if that is a character. -/
def charOf? (n : Nat) : Option Char := if h : n.isValidChar then some (Char.ofNatAux n h) else none

/-- Goes over a text in double quotes, after the first of them. -/
def doubleFrom : Nat → Cursor → Option (List Char × Cursor)
  | 0, _ => none
  | limit + 1, c =>
    if c.atMarker then none
    else
      match c.rest with
      | [] => none
      | '"' :: _ => some ([], c.next)
      | '\\' :: d :: rest =>
        if isBreak d then
          let space := rest.takeWhile fun e => isBlank e || isBreak e
          (doubleFrom limit (c.skip (2 + space.length))).map fun r =>
            (space.filter isBreak ++ r.1, r.2)
        else
          match escapeDigits? d with
          | some count => do
            if rest.length < count then none
            else
              let e ← (Text.hexNumber? (rest.take count)).bind charOf?
              (doubleFrom limit (c.skip (2 + count))).map fun r => (e :: r.1, r.2)
          | none => do
            let e ← escaped? d
            (doubleFrom limit (c.skip 2)).map fun r => (e :: r.1, r.2)
      | d :: _ =>
        if isBlank d || isBreak d then
          let (blanks, _, after) := foldBlanks c
          (doubleFrom limit after).map fun r => (blanks ++ r.1, r.2)
        else (doubleFrom limit c.next).map fun r => (d :: r.1, r.2)

/-- How a block text ends: without line ends, with one, or with all that it has. -/
inductive Chomp where
  | strip | clip | keep
deriving DecidableEq, Repr

/-- Reads how a block text ends, if that stands here. -/
def readChomp : List Char → Option Chomp × List Char
  | '+' :: rest => (some .keep, rest)
  | '-' :: rest => (some .strip, rest)
  | cs => (none, cs)

/-- Reads how far a block text is indented, if that stands here. -/
def readIndent : List Char → Option Nat × List Char
  | [] => (none, [])
  | d :: rest => if '1' ≤ d && d ≤ '9' then (some (d.toNat - 48), rest) else (none, d :: rest)

/-- Reads what stands behind the indicator of a block text, in either order: how it ends, and how
far it is indented. The last part of the answer is the length of what was read. -/
def blockHeader (cs : List Char) : Chomp × Option Nat × Nat :=
  let (chomp, rest) := readChomp cs
  let (indent, rest) := readIndent rest
  let (chomp, rest) := if chomp.isNone && indent.isSome then readChomp rest else (chomp, rest)
  (chomp.getD .clip, indent, cs.length - rest.length)

/-- Goes over empty lines in front of a line of a block text and over the blanks at its start; with
no known indentation all blanks count, and a tab is none. The answer has the ends of the empty
lines, the deepest column, and the place. -/
def blockGap (indent : Option Nat) : Nat → Cursor → Option (List Char × Nat × Cursor)
  | 0, _ => none
  | limit + 1, c => do
    let deeper := (c.rest.takeWhile (· = ' ')).length
    let c := c.skip (match indent with
      | none => deeper
      | some n => min deeper (n - c.column))
    match c.rest with
    | [] => return ([], c.column, c)
    | d :: _ =>
      if isBreak d then
        let (breaks, deepest, after) ← blockGap indent limit c.next
        return (d :: breaks, max c.column deepest, after)
      else if d = '\t' && indent.all (c.column < ·) then none
      else return ([], c.column, c)

/-- Goes over the lines of a block text. `ended` holds the line end of the line before and `breaks`
those of the empty lines after it; `afterBlank` tells whether that line began with a blank. -/
def blockLines (literal : Bool) (indent : Nat) : Nat → List Char → Bool → List Char → Cursor →
    Option (List Char × List Char × List Char × Cursor)
  | 0, _, _, _, _ => none
  | limit + 1, ended, afterBlank, breaks, c => do
    if c.atEnd || c.column ≠ indent then return ([], ended, breaks, c)
    else
      let blank := (c.peek?.map isBlank).getD false
      let between :=
        if !literal && ended = ['\n'] && !afterBlank && !blank then foldBreaks (ended ++ breaks)
        else ended ++ breaks
      let line := c.rest.takeWhile fun d => !isBreak d
      let c := c.skip line.length
      let ended := c.rest.take 1
      let (breaks, _, c) ← blockGap (some indent) (c.rest.length + 1) c.next
      let (text, r) ← blockLines literal indent limit ended blank breaks c
      return (between ++ line ++ text, r)

/-- Goes over a block text, after its indicator; `outer` is the column of the collection around
it. -/
def blockText (literal : Bool) (outer : Int) (c : Cursor) : Option (List Char × Cursor) := do
  let (chomp, digit, length) := blockHeader c.rest
  let c := (c.skip length).skipWhile isBlank
  let c := if c.peek? = some '#' then c.skipLine else c
  if !c.rest.head?.all isBreak then none
  else
    let c := c.next
    let given : Option Nat := digit.map fun d => ((max outer 0).toNat + d)
    let (breaks, deepest, c) ← blockGap given (c.rest.length + 1) c
    let indent := given.getD (max deepest (max (outer + 1) 1).toNat)
    let (text, ended, trailing, c) ← blockLines literal indent (c.rest.length + 1) [] false breaks c
    let ending :=
      match chomp with
      | .strip => []
      | .clip => ended
      | .keep => ended ++ trailing
    return (text ++ ending, c)

end FormPage.Yaml
