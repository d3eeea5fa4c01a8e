import FlowMachine.Datum.Yaml.Tag
import FlowMachine.Datum.Yaml.Text

/-!
# Tokens of a YAML text

Indentation opens and closes blocks, and so becomes tokens of its own. A scalar or a bracket turns
out to be a key only when a colon follows in the same line, so the place of every possible key is
remembered and its tokens are put in later.
-/
namespace FlowMachine.Yaml

inductive Directive where
  /-- The number in front of the point of a version. -/
  | version (major : Nat)
  /-- A handle and what it is short for. -/
  | handle (name expansion : String)
  | reserved
deriving DecidableEq, Repr

inductive Token where
  | documentStart
  | documentEnd
  | directive (d : Directive)
  | sequenceStart
  | mappingStart
  | blockEnd
  | openList
  | closeList
  | openMap
  | closeMap
  | item
  | comma
  | key
  | value
  | alias (name : String)
  | anchor (name : String)
  /-- A tag by its full name. -/
  | tag (name : String)
  /-- A tag by a handle and what stands behind it. -/
  | shorthand (handle suffix : String)
  | scalar (text : String) (plain : Bool)
  /-- A scalar that cannot be read, behind which no token is known. -/
  | stop (cause : ValueFault)
deriving DecidableEq, Repr

/-- A place where a key may have started. -/
structure PossibleKey where
  /-- The number of tokens in front of it. -/
  position : Nat
  /-- Nothing else than a key may stand there. -/
  required : Bool
  index : Nat
  line : Nat
  column : Nat
deriving DecidableEq, Repr

/-- What is read so far. The indentation is one more than the column of the innermost block, and
zero outside of all blocks. -/
structure Scan where
  cursor : Cursor
  tokens : Array Token := #[]
  /-- The brackets that are open. -/
  depth : Nat := 0
  indent : Nat := 0
  outer : List Nat := []
  keyAllowed : Bool := true
  /-- The possible keys by the number of open brackets. -/
  keys : List (Nat × PossibleKey) := []

namespace Scan

def inFlow (s : Scan) : Bool := s.depth != 0

def push (s : Scan) (t : Token) : Scan := { s with tokens := s.tokens.push t }

def moveTo (s : Scan) (c : Cursor) : Scan := { s with cursor := c }

/-- A key has to end within this many characters. -/
def maxKey : Nat := 1024

/-- Forgets possible keys that ended without a colon. -/
def dropStale (s : Scan) : Option Scan :=
  let stale (k : PossibleKey) : Bool :=
    k.line != s.cursor.line || s.cursor.index > k.index + maxKey
  if s.keys.any fun entry => stale entry.2 && entry.2.required then none
  else some { s with keys := s.keys.filter fun entry => !stale entry.2 }

/-- Forgets the possible key among the open brackets. -/
def dropKey (s : Scan) : Option Scan :=
  match s.keys.lookup s.depth with
  | some k => if k.required then none else some { s with keys := s.keys.filter (·.1 != s.depth) }
  | none => some s

/-- Remembers that a key may start here. -/
def noteKey (s : Scan) : Option Scan := do
  if s.keyAllowed then
    let required := !s.inFlow && s.indent == s.cursor.column + 1
    let s ← s.dropKey
    let c := s.cursor
    let k : PossibleKey := ⟨s.tokens.size, required, c.index, c.line, c.column⟩
    return { s with keys := (s.depth, k) :: s.keys }
  else return s

/-- Closes the outer blocks as far as a width of indentation asks. -/
def closeBlocks (width : Nat) : List Nat → Scan → Scan
  | [], s => s
  | outer :: rest, s =>
    if s.indent > width then
      closeBlocks width rest { s.push .blockEnd with indent := outer, outer := rest }
    else s

/-- Closes the blocks that are indented more than a width; within brackets indentation does not
count. -/
def unwind (s : Scan) (width : Nat) : Scan := if s.inFlow then s else closeBlocks width s.outer s

/-- Opens a block at a column, unless one is open there. -/
def openBlock (s : Scan) (column : Nat) : Option Scan :=
  if s.indent < column + 1 then some { s with indent := column + 1, outer := s.indent :: s.outer }
  else none

/-- Passes blanks, comments and line breaks. Behind a line break a key may start. -/
def skipBlank : Nat → Scan → Scan
  | 0, s => s
  | fuel + 1, s =>
    let c := s.cursor.skipWhile (· == ' ')
    let c := if c.sees '#' then c.skipWhile (!isBreak ·) else c
    match c.readBreak with
    | ([], _) => s.moveTo c
    | (_, c) => skipBlank fuel { s with cursor := c, keyAllowed := s.keyAllowed || !s.inFlow }

/-- Ends all blocks before a line that belongs to no document. -/
def leave (s : Scan) : Option Scan := do
  let s ← (s.unwind 0).dropKey
  return { s with keyAllowed := false }

/-- Reads a version such as `1.1`: the number in front of its point. -/
def readVersion (c : Cursor) : Option (Nat × Cursor) :=
  let c := c.skipWhile (· == ' ')
  let major := c.front Char.isDigit
  let behind := c.skipWhile Char.isDigit
  let minor := behind.next.front Char.isDigit
  if major.isEmpty || !behind.sees '.' || minor.isEmpty then none
  else some (Json.digitsValue major, behind.next.skipWhile Char.isDigit)

/-- Reads a handle and the text that it is short for. -/
def readExpansion (c : Cursor) : Option (Directive × Cursor) := do
  let (name, c) ← readHandle (c.skipWhile (· == ' '))
  if !c.sees ' ' then none
  else
    let (expansion, c) ← readUri (c.skipWhile (· == ' '))
    if atGap c then return (.handle name expansion, c) else none

/-- Reads a directive behind its mark. A directive of another name is passed over. -/
def readDirective (c : Cursor) : Option (Token × Cursor) := do
  let name := c.front isNameChar
  let c := c.skip name.length
  if name.isEmpty || !atGap c then none
  else if name == "YAML".toList then
    let (major, c) ← readVersion c
    if atGap c then return (.directive (.version major), ← endOfLine c) else none
  else if name == "TAG".toList then
    let (directive, c) ← readExpansion c
    return (.directive directive, ← endOfLine c)
  else return (.directive .reserved, (c.skipWhile (!isBreak ·)).readBreak.2)

/-- Reads a name of an anchor behind its mark. -/
def readName (c : Cursor) : Option (String × Cursor) :=
  let name := c.front isNameChar
  let c := c.skip name.length
  let ends := endsWord (c.peek 0) || (c.peek 0).any fun x => "?:,]\x7d%@\x60".toList.contains x
  if name.isEmpty || !ends then none else some (String.ofList name, c)

/-- Opens a bracket, which may be a key. -/
def openFlow (s : Scan) (t : Token) : Option Scan := do
  let s ← s.noteKey
  return { s.push t with depth := s.depth + 1, keyAllowed := true, cursor := s.cursor.next }

def closeFlow (s : Scan) (t : Token) : Option Scan := do
  let s ← s.dropKey
  return { s.push t with depth := s.depth - 1, keyAllowed := false, cursor := s.cursor.next }

/-- Starts an entry of a block, which a key may follow. -/
def startEntry (s : Scan) (opener t : Token) : Option Scan := do
  if !s.inFlow && !s.keyAllowed then none
  else
    let s := if s.inFlow then s else
      match s.openBlock s.cursor.column with
      | some s => s.push opener
      | none => s
    let s ← s.dropKey
    return { s.push t with cursor := s.cursor.next }

def readItem (s : Scan) : Option Scan := do
  let s ← s.startEntry .sequenceStart .item
  return { s with keyAllowed := true }

def readKey (s : Scan) : Option Scan := do
  let s ← s.startEntry .mappingStart .key
  return { s with keyAllowed := !s.inFlow }

/-- Puts tokens at a position. -/
def insertAt (s : Scan) (position : Nat) (ts : List Token) : Scan :=
  { s with tokens := s.tokens.extract 0 position ++ ts.toArray ++
      s.tokens.extract position s.tokens.size }

/-- Reads the colon of a value. It makes a key of what may have been one. -/
def readValue (s : Scan) : Option Scan :=
  match s.keys.lookup s.depth with
  | some k =>
    let s := { s with keys := s.keys.filter (·.1 != s.depth) }
    let s := match if s.inFlow then none else s.openBlock k.column with
      | some s => s.insertAt k.position [.mappingStart, .key]
      | none => s.insertAt k.position [.key]
    some { s.push .value with keyAllowed := false, cursor := s.cursor.next }
  | none => do
    let s ← s.startEntry .mappingStart .value
    return { s with keyAllowed := !s.inFlow }

/-- Adds a token that may be a key. -/
def addNamed (s : Scan) (t : String → Token) : Option Scan := do
  let s ← s.noteKey
  let (name, c) ← readName s.cursor.next
  return { s.push (t name) with keyAllowed := false, cursor := c }

def addTag (s : Scan) : Option Scan := do
  let s ← s.noteKey
  let ((handle, suffix), c) ← readTag s.cursor
  let t : Token := match handle with
    | some handle => .shorthand handle suffix
    | none => .tag suffix
  return { s.push t with keyAllowed := false, cursor := c }

def addQuoted (s : Scan) (quote : Char) : Except Fault Scan := do
  let s ← orMalformed s.noteKey
  let (cs, c) ← quoted quote (s.cursor.rest.length + 1) s.cursor.next
  return { s.push (.scalar (String.ofList cs) false) with keyAllowed := false, cursor := c }

def addPlain (s : Scan) : Option Scan := do
  let s ← s.noteKey
  let (cs, ended, c) := plain s.inFlow s.indent (s.cursor.rest.length + 1) [] false s.cursor
  return { s.push (.scalar (String.ofList cs) true) with keyAllowed := ended, cursor := c }

def addBlock (s : Scan) (folded : Bool) : Option Scan := do
  let s ← s.dropKey
  let (cs, c) ← block folded (max 1 s.indent) s.cursor.next
  return { s.push (.scalar (String.ofList cs) false) with keyAllowed := true, cursor := c }

/-- A plain scalar can start with the character, of which the one behind is given too. -/
def startsPlain (inFlow : Bool) (c : Char) (behind : Option Char) : Bool :=
  !(endsWord (some c) || "-?:,[]\x7b\x7d#&*!|>'\"%@\x60".toList.contains c) ||
    (!endsWord behind && (c == '-' || (!inFlow && (c == '?' || c == ':'))))

/-- Reads the next token, unless it is a quoted scalar. -/
def unquoted (s : Scan) (c : Char) : Option Scan :=
  let behind := s.cursor.peek 1
  let starts := s.cursor.column == 0
  if c == '%' && starts then do
    let s ← s.leave
    let (t, c) ← readDirective s.cursor.next
    return (s.push t).moveTo c
  else if starts && s.cursor.atMark ['-', '-', '-'] then do
    let s ← s.leave
    return (s.push .documentStart).moveTo (s.cursor.skip 3)
  else if starts && s.cursor.atMark ['.', '.', '.'] then do
    let s ← s.leave
    return (s.push .documentEnd).moveTo (s.cursor.skip 3)
  else if c == '[' then s.openFlow .openList
  else if c == '{' then s.openFlow .openMap
  else if c == ']' then s.closeFlow .closeList
  else if c == '}' then s.closeFlow .closeMap
  else if c == ',' then do
    let s ← { s with keyAllowed := true }.dropKey
    return (s.push .comma).moveTo s.cursor.next
  else if c == '-' && endsWord behind then s.readItem
  else if c == '?' && (s.inFlow || endsWord behind) then s.readKey
  else if c == ':' && (s.inFlow || endsWord behind) then s.readValue
  else if c == '*' then s.addNamed .alias
  else if c == '&' then s.addNamed .anchor
  else if c == '!' then s.addTag
  else if c == '|' && !s.inFlow then s.addBlock false
  else if c == '>' && !s.inFlow then s.addBlock true
  else if startsPlain s.inFlow c behind then s.addPlain
  else none

/-- Reads the next token. -/
def step (s : Scan) (c : Char) : Except Fault Scan :=
  if c == '\'' || c == '"' then s.addQuoted c else orMalformed (s.unquoted c)

/-- The tokens up to a scalar that cannot be read. What may still turn out to be a key is looked at
only when it is known to be one or not, so nothing from the first such place on is reached. -/
def stopAt (s : Scan) (cause : ValueFault) : List Token :=
  let s := s.noteKey.getD s
  let reached := s.keys.foldl (fun n entry => min n entry.2.position) s.tokens.size
  s.tokens.toList.take reached ++ [.stop cause]

/-- Reads all tokens, as far as they can be read. -/
def run : Nat → Scan → Option (List Token)
  | 0, _ => none
  | fuel + 1, s => do
    let s ← (skipBlank (s.cursor.rest.length + 1) s).dropStale
    let s := s.unwind (s.cursor.column + 1)
    match s.cursor.rest with
    | [] => return (← s.leave).tokens.toList
    | c :: _ =>
      match s.step c with
      | .ok s => run fuel s
      | .error (.value cause) => return s.stopAt cause
      | .error .malformed => none

end Scan

/-- The tokens of a text, unless it is malformed. -/
def tokens? (cs : List Char) : Option (List Token) :=
  if cs.all isPrintable then
    let start : Cursor := { rest := cs }
    Scan.run (cs.length + 1) { cursor := if start.sees '\uFEFF' then start.next else start }
  else none

end FlowMachine.Yaml
