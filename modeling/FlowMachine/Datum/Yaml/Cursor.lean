/-!
# Places in a YAML text

What is left of a text, with the line and the column of its first character. The end of the text
counts as a blank and as a line break wherever either is looked for.
-/
namespace FlowMachine.Yaml

/-- What is left of a text. -/
structure Cursor where
  rest : List Char
  index : Nat := 0
  line : Nat := 0
  column : Nat := 0
deriving DecidableEq, Repr

def isBreak (c : Char) : Bool :=
  c == '\n' || c == '\r' || c == '\x85' || c == '\u2028' || c == '\u2029'

/-- The character is missing or breaks the line. -/
def endsLine (c : Option Char) : Bool := c.all isBreak

/-- The character is missing, a blank or a line break. -/
def endsWord (c : Option Char) : Bool := c.all fun c => c == ' ' || c == '\t' || isBreak c

/-- The characters that a text may hold. -/
def isPrintable (c : Char) : Bool :=
  let n := c.toNat
  n == 0x09 || n == 0x0A || n == 0x0D || (0x20 ≤ n && n ≤ 0x7E) || n == 0x85 ||
    (0xA0 ≤ n && n ≤ 0xD7FF) || (0xE000 ≤ n && n ≤ 0xFFFD) || 0x10000 ≤ n

namespace Cursor

/-- The character at a distance. -/
def peek (c : Cursor) (n : Nat) : Option Char := c.rest[n]?

/-- The next character is this one. -/
def sees (c : Cursor) (char : Char) : Bool := c.rest.head? == some char

/-- One character further. -/
def next (c : Cursor) : Cursor :=
  match c.rest with
  | [] => c
  | char :: rest =>
    let breaks := isBreak char && !(char == '\r' && rest.head? == some '\n')
    if breaks then ⟨rest, c.index + 1, c.line + 1, 0⟩
    else ⟨rest, c.index + 1, c.line, if char == '\uFEFF' then c.column else c.column + 1⟩

/-- A number of characters further. -/
def skip (c : Cursor) : Nat → Cursor
  | 0 => c
  | n + 1 => c.next.skip n

/-- The characters at the front that all have a property. -/
def front (c : Cursor) (p : Char → Bool) : List Char := c.rest.takeWhile p

/-- Behind the characters at the front that all have a property. -/
def skipWhile (c : Cursor) (p : Char → Bool) : Cursor := c.skip (c.front p).length

/-- Reads a line break, if there is one: separators of lines and paragraphs stay what they are. -/
def readBreak (c : Cursor) : List Char × Cursor :=
  match c.rest with
  | '\r' :: '\n' :: _ => (['\n'], c.skip 2)
  | char :: _ =>
    if char == '\u2028' || char == '\u2029' then ([char], c.next)
    else if isBreak char then (['\n'], c.next)
    else ([], c)
  | [] => ([], c)

/-- A mark that starts or ends a document stands here. -/
def atMark (c : Cursor) (mark : List Char) : Bool :=
  c.rest.take 3 == mark && endsWord (c.peek 3)

/-- A line that bounds a document starts here. -/
def atBoundary (c : Cursor) : Bool := c.atMark ['-', '-', '-'] || c.atMark ['.', '.', '.']

end Cursor

end FlowMachine.Yaml
