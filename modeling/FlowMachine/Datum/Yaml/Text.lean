import FlowMachine.Datum.Json
import FlowMachine.Datum.Yaml.Cursor
import FlowMachine.Datum.Yaml.Fault

/-!
# Scalars in a YAML text

The text of a scalar that stands between quotes, plainly, or as a block of indented lines. Inside
quotes and in plain scalars a line break becomes a space, and each further one a line feed.
-/
namespace FlowMachine.Yaml

/-- The text that a line break and the empty lines behind it stand for. -/
def foldBreak (first breaks : List Char) : List Char :=
  if first != ['\n'] then first ++ breaks
  else if breaks.isEmpty then [' ']
  else breaks

/-- Reads empty lines inside quotes. A line that bounds a document may not stand there. -/
def quotedBreaks : Nat → Cursor → Option (List Char × Cursor)
  | 0, _ => none
  | fuel + 1, c =>
    if c.atBoundary then none
    else
      let c := c.skipWhile fun x => x == ' ' || x == '\t'
      match c.readBreak with
      | ([], _) => some ([], c)
      | (char, c) => (quotedBreaks fuel c).map fun r => (char ++ r.1, r.2)

/-- Reads blanks or line breaks inside quotes. -/
def quotedSpaces (fuel : Nat) (c : Cursor) : Option (List Char × Cursor) :=
  let isSpace (x : Char) : Bool := x == ' ' || x == '\t'
  let spaces := c.front isSpace
  let c := c.skipWhile isSpace
  match c.rest with
  | [] => none
  | _ =>
    match c.readBreak with
    | ([], _) => some (spaces, c)
    | (first, c) => (quotedBreaks fuel c).map fun r => (foldBreak first r.1, r.2)

/-- Escapes that stand for one character. -/
def escapes : List (Char × Nat) :=
  [('0', 0), ('a', 7), ('b', 8), ('\t', 9), ('t', 9), ('n', 10), ('v', 11), ('f', 12), ('r', 13),
   ('e', 27), (' ', 32), ('"', 34), ('\\', 92), ('/', 47), ('N', 0x85), ('_', 0xA0),
   ('L', 0x2028), ('P', 0x2029)]

/-- Escapes by a code point, with the number of their digits. -/
def codeEscapes : List (Char × Nat) := [('x', 2), ('u', 4), ('U', 8)]

/-- The number that hexadecimal digits spell. -/
def hexNumber? (cs : List Char) : Option Nat :=
  cs.foldlM (fun n c => (Json.hexValue? c).map (n * 16 + ·)) 0

/-- What is not there is malformed. -/
def orMalformed : Option α → Except Fault α
  | some a => .ok a
  | none => .error .malformed

/-- The second half of a pair of 16-bit units, when the text goes on with its escape. -/
def lowUnit? : List Char → Option Nat
  | '\\' :: 'u' :: a :: b :: c :: d :: _ => Json.unitValue? a b c d
  | _ => none

/-- Reads an escape by a code point behind its letter. Two halves of a pair are one character. -/
def readCode (width : Nat) (c : Cursor) : Except Fault (List Char × Cursor) :=
  match if c.rest.length < width then none else hexNumber? (c.rest.take width) with
  | none => .error .malformed
  | some n =>
    let c := c.skip width
    match (lowUnit? c.rest).bind (Json.joinUnits? n) with
    | some char => .ok ([char], c.skip 6)
    | none =>
      if n < 0x110000 then .ok ([Json.ofUnit n], c) else .error (.value (.noCharacter n))

/-- Reads an escape behind its backslash. -/
def readEscape (fuel : Nat) (c : Cursor) : Except Fault (List Char × Cursor) :=
  match c.rest with
  | [] => .error .malformed
  | char :: _ =>
    match escapes.lookup char, codeEscapes.lookup char with
    | some n, _ => .ok ([Char.ofNat n], c.next)
    | none, some width => readCode width c.next
    | none, none =>
      orMalformed (if isBreak char then quotedBreaks fuel c.readBreak.2 else none)

/-- Reads a scalar behind its opening quote. -/
def quoted (quote : Char) : Nat → Cursor → Except Fault (List Char × Cursor)
  | 0, _ => .error .malformed
  | fuel + 1, c =>
    let more (cs : List Char) (c : Cursor) : Except Fault (List Char × Cursor) :=
      (quoted quote fuel c).map fun r => (cs ++ r.1, r.2)
    match c.rest with
    | [] => .error .malformed
    | char :: rest =>
      if char == quote then
        if quote == '\'' && rest.head? == some '\'' then more [char] (c.skip 2)
        else .ok ([], c.next)
      else if quote == '"' && char == '\\' then
        (readEscape fuel c.next).bind fun r => more r.1 r.2
      else if endsWord (some char) then
        (orMalformed (quotedSpaces fuel c)).bind fun r => more r.1 r.2
      else more [char] c.next

/-- The run of a plain scalar at the front: up to a blank, a colon with a blank behind it, and
within brackets up to a mark of them. -/
def plainRun (inFlow : Bool) : List Char → List Char
  | [] => []
  | c :: cs =>
    let closes (x : Char) : Bool := x == ',' || x == '[' || x == ']' || x == '{' || x == '}'
    let colon := c == ':' && (endsWord cs.head? || (inFlow && cs.head?.any closes))
    if endsWord (some c) || colon || (inFlow && (closes c || c == '?')) then []
    else c :: plainRun inFlow cs

/-- The breaks behind the first one in a plain scalar; nothing if a document ends there. -/
def plainBreaks : Nat → Cursor → Option (List Char) × Cursor
  | 0, c => (none, c)
  | fuel + 1, c =>
    let c := c.skipWhile (· == ' ')
    match c.readBreak with
    | ([], _) => (some [], c)
    | (char, c) =>
      if c.atBoundary then (none, c)
      else
        let r := plainBreaks fuel c
        (r.1.map (char ++ ·), r.2)

/-- What stands between two runs of a plain scalar, and whether a line ended in it. -/
def plainSpaces (fuel : Nat) (c : Cursor) : List Char × Bool × Cursor :=
  let spaces := c.front (· == ' ')
  let c := c.skipWhile (· == ' ')
  match c.readBreak with
  | ([], _) => (spaces, false, c)
  | (first, c) =>
    if c.atBoundary then ([], true, c)
    else
      let r := plainBreaks fuel c
      ((r.1.map (foldBreak first)).getD [], true, r.2)

/-- Reads a plain scalar, whose lines are indented by `indent` outside of brackets: its text, and
whether a line ended at its end. -/
def plain (inFlow : Bool) (indent : Nat) :
    Nat → List Char → Bool → Cursor → List Char × Bool × Cursor
  | 0, _, ended, c => ([], ended, c)
  | fuel + 1, spaces, ended, c =>
    let run := if c.sees '#' then [] else plainRun inFlow c.rest
    if run.isEmpty then ([], ended, c)
    else
      let between := plainSpaces fuel (c.skip run.length)
      let after := between.2.2
      let stops := between.1.isEmpty || after.sees '#' || (!inFlow && after.column < indent)
      if stops then (spaces ++ run, between.2.1, after)
      else
        let r := plain inFlow indent fuel between.1 between.2.1 after
        (spaces ++ run ++ r.1, r.2)

/-- What becomes of the line breaks at the end of a block. -/
inductive Chomping where
  | clip
  | strip
  | keep
deriving DecidableEq, Repr

/-- Reads the marks behind the start of a block: what becomes of its end, and its indentation. -/
def blockMarks (c : Cursor) : Option ((Chomping × Option Nat) × Cursor) :=
  let chomping? (c : Cursor) : Option Chomping := match c.rest.head? with
    | some '+' => some .keep
    | some '-' => some .strip
    | _ => none
  let increment? (c : Cursor) : Option Nat :=
    c.rest.head?.bind fun x => if x.isDigit then some (x.toNat - 48) else none
  let done (chomping : Option Chomping) (increment : Option Nat) (c : Cursor) :
      Option ((Chomping × Option Nat) × Cursor) :=
    if increment == some 0 then none
    else if c.sees ' ' || endsLine (c.peek 0) then some ((chomping.getD .clip, increment), c)
    else none
  match chomping? c with
  | some chomping =>
    match increment? c.next with
    | some n => done chomping n (c.skip 2)
    | none => done chomping none c.next
  | none =>
    match increment? c with
    | some n =>
      match chomping? c.next with
      | some chomping => done chomping n (c.skip 2)
      | none => done none n c.next
    | none => done none none c

/-- Passes blanks, a comment and the end of a line. -/
def endOfLine (c : Cursor) : Option Cursor :=
  let c := c.skipWhile (· == ' ')
  let c := if c.sees '#' then c.skipWhile (!isBreak ·) else c
  if endsLine (c.peek 0) then some c.readBreak.2 else none

/-- Passes empty lines in front of a block and finds the deepest indentation among them and the
first line. -/
def blockIndentation : Nat → Nat → Cursor → List Char × Nat × Cursor
  | 0, deepest, c => ([], deepest, c)
  | fuel + 1, deepest, c =>
    if c.sees ' ' then
      let c := c.next
      blockIndentation fuel (max deepest c.column) c
    else
      match c.readBreak with
      | ([], _) => ([], deepest, c)
      | (char, c) =>
        let r := blockIndentation fuel deepest c
        (char ++ r.1, r.2)

/-- Passes the indentation of a line, at most `indent` wide. -/
def skipIndent (indent : Nat) (c : Cursor) : Cursor :=
  c.skip (min (c.front (· == ' ')).length (indent - c.column))

/-- Passes empty lines and the indentation of the line behind them. -/
def blockBreaks (indent : Nat) : Nat → Cursor → List Char × Cursor
  | 0, c => ([], c)
  | fuel + 1, c =>
    let c := skipIndent indent c
    match c.readBreak with
    | ([], _) => ([], c)
    | (char, c) =>
      let r := blockBreaks indent fuel c
      (char ++ r.1, r.2)

/-- Reads the lines of a block, with the breaks in front of the first. A folded block joins lines
that start without a blank. -/
def blockLines (folded : Bool) (indent : Nat) (chomping : Chomping) :
    Nat → List Char → Cursor → List Char × Cursor
  | 0, _, c => ([], c)
  | fuel + 1, breaks, c =>
    let isSpace (x : Option Char) : Bool := x == some ' ' || x == some '\t'
    let line := c.front (!isBreak ·)
    let ended := (c.skip line.length).readBreak
    let behind := blockBreaks indent fuel ended.2
    let after := behind.2
    if after.column == indent && !after.rest.isEmpty then
      let joins := folded && ended.1 == ['\n'] && !isSpace (c.peek 0) && !isSpace (after.peek 0)
      let seam := if joins then (if behind.1.isEmpty then [' '] else []) else ended.1
      let r := blockLines folded indent chomping fuel behind.1 after
      (breaks ++ line ++ seam ++ r.1, r.2)
    else
      let tail := match chomping with
        | .strip => []
        | .clip => ended.1
        | .keep => ended.1 ++ behind.1
      (breaks ++ line ++ tail, after)

/-- Reads a block scalar behind its first mark, inside of what is indented by `parent`. -/
def block (folded : Bool) (parent : Nat) (c : Cursor) : Option (List Char × Cursor) := do
  let (marks, c) ← blockMarks c
  let c ← endOfLine c
  let fuel := c.rest.length + 1
  let (breaks, indent, c) := match marks.2 with
    | none =>
      let r := blockIndentation fuel 0 c
      (r.1, max parent r.2.1, r.2.2)
    | some n =>
      let indent := parent + n - 1
      let r := blockBreaks indent fuel c
      (r.1, indent, r.2)
  if c.column == indent && !c.rest.isEmpty then
    return blockLines folded indent marks.1 fuel breaks c
  else
    return (if marks.1 == .keep then breaks else [], c)

end FlowMachine.Yaml
