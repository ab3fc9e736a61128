/-!
A place in a YAML text, with the line and the column that decide about its structure. Where a line
may end in several ways, `normalize` leaves a line feed; the separators of lines and of paragraphs
stay what they are.
-/

namespace FormPage.Yaml

/-- A blank within a line. -/
def isBlank (c : Char) : Bool := c = ' ' || c = '\t'

/-- A character that ends a line. -/
def isBreak (c : Char) : Bool :=
  c = '\n' || c = '\r' || c = '\u0085' || c = '\u2028' || c = '\u2029'

/-- A place in a text. -/
structure Cursor where
  /-- What is still to be read. -/
  rest : List Char
  line : Nat := 0
  column : Nat := 0
deriving Repr

/-- Whether a text ends here or goes on with a blank or a line end. -/
def endsWord : List Char → Bool
  | [] => true
  | c :: _ => isBlank c || isBreak c

namespace Cursor

/-- Whether nothing is left. -/
def atEnd (c : Cursor) : Bool := c.rest.isEmpty

/-- The next character. -/
def peek? (c : Cursor) : Option Char := c.rest.head?

/-- Goes over the next character. -/
def next (c : Cursor) : Cursor :=
  match c.rest with
  | [] => c
  | d :: rest => if isBreak d then ⟨rest, c.line + 1, 0⟩ else ⟨rest, c.line, c.column + 1⟩

/-- Goes over some characters. -/
def skip (c : Cursor) : Nat → Cursor
  | 0 => c
  | n + 1 => c.next.skip n

/-- Goes over all characters of a kind. -/
def skipWhile (p : Char → Bool) (c : Cursor) : Cursor := c.skip (c.rest.takeWhile p).length

/-- Goes over the rest of the line, up to its end. -/
def skipLine (c : Cursor) : Cursor := c.skipWhile fun d => !isBreak d

/-- Whether an indicator stands here as a word of its own. -/
def startsWord (c : Cursor) (indicator : Char) : Bool :=
  c.peek? = some indicator && endsWord (c.rest.drop 1)

/-- Whether one of the marks between documents stands here. -/
def atMarker (c : Cursor) : Bool :=
  c.column = 0 && (c.rest.take 3 = ['-', '-', '-'] || c.rest.take 3 = ['.', '.', '.']) &&
    endsWord (c.rest.drop 3)

/-- Goes to the next token in block style: over blanks, comments, line ends, and a byte order mark
at the start of a line. A tab is a blank only where no key may begin, and an error elsewhere; the
answer tells whether a key may begin at the token. -/
def gapFrom : Nat → Bool → Cursor → Option (Cursor × Bool)
  | 0, _, _ => none
  | limit + 1, keyAllowed, c =>
    match c.rest with
    | [] => some (c, keyAllowed)
    | d :: _ =>
      if isBreak d then gapFrom limit true c.next
      else if d = ' ' || (d = '\uFEFF' && c.column = 0) then gapFrom limit keyAllowed c.next
      else if d = '\t' then if keyAllowed then none else gapFrom limit keyAllowed c.next
      else if d = '#' then gapFrom limit keyAllowed c.skipLine
      else some (c, keyAllowed)

/-- Goes to the next token in block style. -/
def gap (keyAllowed : Bool) (c : Cursor) : Option (Cursor × Bool) :=
  gapFrom (c.rest.length + 1) keyAllowed c

/-- Goes to the next token in flow style: over blanks, comments, line ends, and a byte order mark
at the start of a line. -/
def flowGapFrom : Nat → Cursor → Cursor
  | 0, c => c
  | limit + 1, c =>
    match c.rest with
    | [] => c
    | d :: _ =>
      if isBlank d || isBreak d || (d = '\uFEFF' && c.column = 0) then flowGapFrom limit c.next
      else if d = '#' then flowGapFrom limit c.skipLine
      else c

/-- Goes to the next token in flow style. -/
def flowGap (c : Cursor) : Cursor := flowGapFrom (c.rest.length + 1) c

end Cursor

/-- A character that may stand in a text at all. -/
def isAllowed (c : Char) : Bool :=
  let n := c.toNat
  n = 0x09 || n = 0x0A || n = 0x0D || (0x20 ≤ n && n ≤ 0x7E) || n = 0x85 ||
    (0xA0 ≤ n && n ≤ 0xFFFD) || 0x10000 ≤ n

/-- Turns every line end that is not a separator into a line feed. -/
def normalize : List Char → List Char
  | [] => []
  | '\r' :: '\n' :: rest => '\n' :: normalize rest
  | c :: rest => (if c = '\r' || c = '\u0085' then '\n' else c) :: normalize rest

end FormPage.Yaml
