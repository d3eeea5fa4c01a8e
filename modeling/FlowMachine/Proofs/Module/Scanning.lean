import FlowMachine.Proofs.Module.Blocks

/-!
# Going through characters

A module text can be gone through character by character, with a state that tells what the reader is
in the middle of, which brackets, indentations and blocks are open, and the kinds of the line so
far. A state and the characters behind it are good when the tokens of these characters complete the
line and all open blocks.
-/
namespace FlowMachine.Module

/-- What the reader of characters is in the middle of. -/
inductive Mode where
  /-- The start of a line, behind a number of blanks. -/
  | start (blanks : Nat)
  /-- Between two tokens of a line. -/
  | inner
  /-- A word that can become a reserved one, or the mark of a text. -/
  | word (cs : List Char)
  /-- Any other word. -/
  | name
  | zero
  | number
  | mark (c : Char)
  | stars
  | quoted (quote : Char)
  | empty (quote : Char)
  | short (quote : Char)
  | escaped (quote : Char)
  | long (quote : Char)
  | closing (quote : Char) (twice : Bool)
  | longEscaped (quote : Char)
  /-- A comment: behind a line or on a line of its own. -/
  | comment (own : Bool)
  /-- Behind an operand, which the next character has to end. -/
  | behind (k : Kind)
  /-- Inside of triple quotes, behind a text that may end with quotes. -/
  | text (quote : Char)
deriving DecidableEq, Repr

structure Scan where
  mode : Mode := .start 0
  /-- Brackets that are open, the innermost first. -/
  brackets : List Sign := []
  /-- Widths of the open indentations, the innermost first. -/
  indents : List Nat := [0]
  slots : List Slot := [.fresh]
  /-- A block is missing. -/
  headed : Bool := false
  /-- The kinds of the line, the last one first. -/
  line : List Kind := []
deriving DecidableEq, Repr

namespace Scan

/-- Reserved words without their first characters, under these, with the signs of those that
documents have. -/
def reserved : List (Char × List (List Char × Option Sign)) :=
  [('F', [(['a', 'l', 's', 'e'], some .false)]),
   ('N', [(['o', 'n', 'e'], some .none)]),
   ('T', [(['r', 'u', 'e'], some .true)]),
   ('a', [(['n', 'd'], some .and), (['s'], some .as), (['s', 's', 'e', 'r', 't'], some .assert),
     (['s', 'y', 'n', 'c'], none), (['w', 'a', 'i', 't'], none)]),
   ('b', [(['r', 'e', 'a', 'k'], none)]),
   ('c', [(['l', 'a', 's', 's'], some .classDef),
     (['o', 'n', 't', 'i', 'n', 'u', 'e'], some .continue)]),
   ('d', [(['e', 'f'], some .funDef), (['e', 'l'], none)]),
   ('e', [(['l', 'i', 'f'], some .elif), (['l', 's', 'e'], some .else),
     (['x', 'c', 'e', 'p', 't'], some .except)]),
   ('f', [(['i', 'n', 'a', 'l', 'l', 'y'], none), (['o', 'r'], some .for),
     (['r', 'o', 'm'], some .from)]),
   ('g', [(['l', 'o', 'b', 'a', 'l'], none)]),
   ('i', [(['f'], some .if), (['m', 'p', 'o', 'r', 't'], some .import), (['n'], some .in),
     (['s'], some .is)]),
   ('l', [(['a', 'm', 'b', 'd', 'a'], none)]),
   ('m', [(['a', 't', 'c', 'h'], some .match)]),
   ('n', [(['o', 'n', 'l', 'o', 'c', 'a', 'l'], none), (['o', 't'], some .not)]),
   ('o', [(['r'], some .or)]),
   ('p', [(['a', 's', 's'], some .pass)]),
   ('r', [(['a', 'i', 's', 'e'], none), (['e', 't', 'u', 'r', 'n'], some .return)]),
   ('t', [(['r', 'y'], some .try)]),
   ('w', [(['h', 'i', 'l', 'e'], some .while), (['i', 't', 'h'], none)]),
   ('y', [(['i', 'e', 'l', 'd'], none)])]

/-- The characters are the same. Their numbers are compared, which is much quicker to evaluate. -/
def same (c d : Char) : Bool := c.toNat == d.toNat

@[simp] theorem same_eq (c d : Char) : same c d = (c == d) := by
  rw [same, Bool.eq_iff_iff, beq_iff_eq, beq_iff_eq, Char.toNat_inj]

/-- What goes with a character. -/
def valueOf? {α : Type} (c : Char) (pairs : List (Char × α)) : Option α :=
  (pairs.find? (same c ·.1)).map Prod.snd

theorem mem_of_valueOf? {α : Type} {c : Char} {value : α} {pairs : List (Char × α)}
    (h : valueOf? c pairs = some value) : (c, value) ∈ pairs := by
  obtain ⟨pair, hfind, rfl⟩ := Option.map_eq_some_iff.mp h
  have hc : c = pair.1 := by simpa using List.find?_some hfind
  rw [hc]
  exact List.mem_of_find?_eq_some hfind

/-- The reserved words that start with a character, without it. -/
def reservedBehind (c : Char) : List (List Char × Option Sign) := (valueOf? c reserved).getD []

/-- A reserved word starts with the characters. -/
def isOpen : List Char → Bool
  | [] => true
  | c :: cs => (reservedBehind c).any (cs.isPrefixOf ·.1)

/-- A word as far as it was read. -/
def wordMode (cs : List Char) : Mode := if isOpen cs then .word cs else .name

def push (S : Scan) (k : Kind) : Scan := { S with mode := .inner, line := k :: S.line }

/-- The kind of a word. -/
def wordKind? : List Char → Option Kind
  | [] => none
  | c :: cs =>
    match (reservedBehind c).find? (·.1 == cs) with
    | some entry => entry.2.map .sign
    | none => some .name

/-- Closes blocks down to an indentation. -/
def unindent (n : Nat) : List Nat → List Slot → Option (List Nat × List Slot)
  | i :: indents, s :: slots =>
    if i == n then some (i :: indents, s :: slots)
    else if n < i && s.isClosed then unindent n indents slots else none
  | _, _ => none

/-- Starts a line behind a number of blanks. -/
def startLine (S : Scan) (n : Nat) : Option Scan :=
  if S.headed then
    if S.indents.head?.any (· < n) then
      some
        { S with
          mode := .inner
          indents := n :: S.indents
          slots := .fresh :: S.slots
          headed := false
          line := [] }
    else none
  else (unindent n S.indents S.slots).map fun (indents, slots) =>
    { S with mode := .inner, indents, slots, line := [] }

/-- Ends a line. -/
def endLine (S : Scan) : Option Scan := do
  let form ← Phrase.form? S.line.reverse
  match S.slots with
  | slot :: slots =>
    let slot ← slot.after? form
    return { S with mode := .start 0, slots := slot :: slots, headed := form.opens, line := [] }
  | [] => none

def isNameChar (c : Char) : Bool := c.isAlphanum || c == '_'

def isQuote (c : Char) : Bool := same c '"' || same c '\''

theorem isQuote_eq (c : Char) : isQuote c = (c == '"' || c == '\'') := by simp [isQuote]

theorem isQuote_iff {c : Char} : isQuote c = true ↔ c = '"' ∨ c = '\'' := by simp [isQuote]

def openers : List (Char × Sign) := [('(', .openParen), ('[', .openBracket), ('\x7b', .openBrace)]

/-- The signs of closing brackets, with the brackets that they close. -/
def closers : List (Char × Sign × Sign) :=
  [(')', .closeParen, .openParen), (']', .closeBracket, .openBracket),
    ('\x7d', .closeBrace, .openBrace)]

/-- The signs of marks of one character. -/
def singles : List (Char × Sign) :=
  [(',', .comma), (':', .colon), ('.', .dot), ('=', .equals), ('@', .at), ('*', .star),
   ('+', .plus), ('-', .minus), ('<', .less), ('>', .greater)]

/-- The signs of marks of two characters. -/
def doubles : List ((Char × Char) × Sign) :=
  [(('=', '='), .same), (('!', '='), .differs), (('<', '='), .atMost), (('>', '='), .atLeast),
   (('+', '='), .plusEquals), (('-', '>'), .arrow)]

def double? (d c : Char) : Option Sign :=
  (doubles.find? fun pair => same d pair.1.1 && same c pair.1.2).map Prod.snd

theorem mem_of_double? {d c : Char} {s : Sign} (h : double? d c = some s) :
    ((d, c), s) ∈ doubles := by
  obtain ⟨pair, hfind, rfl⟩ := Option.map_eq_some_iff.mp h
  obtain ⟨hd, hc⟩ : d = pair.1.1 ∧ c = pair.1.2 := by simpa using List.find?_some hfind
  rw [hd, hc]
  exact List.mem_of_find?_eq_some hfind

/-- Reads a character between two tokens. -/
def innerStep (S : Scan) (c : Char) : Option Scan :=
  if same c ' ' then some { S with mode := .inner }
  else if same c '\n' then if S.brackets.isEmpty then endLine S else some { S with mode := .inner }
  else if same c '#' then some { S with mode := .comment false }
  else if isQuote c then some { S with mode := .quoted c }
  else if same c '0' then some { S with mode := .zero }
  else if c.isDigit then some { S with mode := .number }
  else if c.isAlpha || same c '_' then some { S with mode := wordMode [c] }
  else
    match valueOf? c openers with
    | some s => some { S.push (.sign s) with brackets := s :: S.brackets }
    | none =>
      match valueOf? c closers with
      | some (s, open') =>
        match S.brackets with
        | b :: brackets => if b == open' then some { S.push (.sign s) with brackets } else none
        | [] => none
      | none => if same c '!' || (valueOf? c singles).isSome then some { S with mode := .mark c }
        else none

/-- A mark that the character starts would go on with the other one. -/
def runsOn (c d : Char) : Bool :=
  d == '=' || (c == '-' && d == '>') || (c == '<' && d == '<') || (c == '>' && d == '>') ||
    (c == '.' && (d == '.' || d.isDigit))

/-- The character ends an operand, whichever it is. -/
def endsOperand (c : Char) : Bool := !isNamePart c && !isQuote c && c != '.'

/-- Reads a character between triple quotes. -/
def longStep (S : Scan) (q c : Char) : Scan :=
  { S with mode := if same c q then .closing q false else if same c '\\' then .longEscaped q
    else .long q }

/-- Reads a character. -/
def step (S : Scan) (c : Char) : Option Scan :=
  match S.mode with
  | .start n =>
    if same c ' ' then some { S with mode := .start (n + 1) }
    else if same c '\n' then some { S with mode := .start 0 }
    else if same c '#' then some { S with mode := .comment true }
    else (S.startLine n).bind (innerStep · c)
  | .inner => innerStep S c
  | .word cs =>
    if isNameChar c then some { S with mode := wordMode (cs ++ [c]) }
    else if isQuote c then
      if cs == ['f'] || cs == ['r'] then some { S with mode := .quoted c } else none
    else (wordKind? cs).bind fun k => innerStep (S.push k) c
  | .name =>
    if isNameChar c then some S
    else if isQuote c then none
    else innerStep (S.push .name) c
  | .zero => if isNameChar c || same c '.' then none else innerStep (S.push .number) c
  | .number =>
    if c.isDigit then some S
    else if isNameChar c || same c '.' then none
    else innerStep (S.push .number) c
  | .mark d =>
    if same d '*' && same c '*' then some { S with mode := .stars }
    else
      match double? d c with
      | some s => some (S.push (.sign s))
      | none =>
        if runsOn d c then none
        else (valueOf? d singles).bind fun s => innerStep (S.push (.sign s)) c
  | .stars => if same c '=' then none else innerStep (S.push (.sign .doubleStar)) c
  | .quoted q =>
    if same c q then some { S with mode := .empty q }
    else if same c '\\' then some { S with mode := .escaped q }
    else if same c '\n' then none
    else some { S with mode := .short q }
  | .empty q =>
    if same c q then some { S with mode := .long q }
    else innerStep (S.push .string) c
  | .short q =>
    if same c q then some (S.push .string)
    else if same c '\\' then some { S with mode := .escaped q }
    else if same c '\n' then none
    else some S
  | .escaped q => if same c '\n' then none else some { S with mode := .short q }
  | .long q => some (S.longStep q c)
  | .closing q twice =>
    if same c q then some (if twice then S.push .string else { S with mode := .closing q true })
    else some (S.longStep q c)
  | .longEscaped q => some { S with mode := .long q }
  | .comment own =>
    if same c '\n' then if own then some { S with mode := .start 0 } else innerStep S c
    else some S
  | .behind k => if endsOperand c then innerStep (S.push k) c else none
  | .text q => if same c q then none else some (S.longStep q c)

/-- The character stands for itself in texts of modules. -/
def isClear (c : Char) : Bool := !same c '\r' && !same c (Char.ofNat 0)

/-- Reads characters that stand for themselves. -/
def run (S : Scan) : List Char → Option Scan
  | [] => some S
  | c :: cs => if isClear c then (S.step c).bind (run · cs) else none

/-- A module may end here. -/
def isEnd (S : Scan) : Bool :=
  S.mode == .start 0 && !S.headed && S.slots.all Slot.isClosed &&
    (S.indents.filter (· != 0)).length + 1 == S.slots.length

end Scan

/-! ## What is left to read -/

/-- The tokens go on with the blocks that are open. Behind a head an indentation stands in front of
them. -/
def Accepts (headed : Bool) (slots : List Slot) (ts : List Token) : Prop :=
  if headed then ∃ line level zs, ts = ⟨.indent, line, level⟩ :: zs ∧ Nested (.fresh :: slots) zs
  else Nested slots ts

namespace Scan

variable {S S' : Scan} {c : Char} {cs rest : List Char} {ts : List Token}

/-- The character of an opening bracket. -/
def bracketChar : Sign → Char
  | .openParen => '('
  | .openBracket => '['
  | _ => '\x7b'

/-- The place has the brackets and indentations that are open here. -/
structure Fits (S : Scan) (p : Place) : Prop where
  brackets : p.brackets.map (·.1) = S.brackets.map bracketChar
  indents : p.indents = S.indents.map fun n => ⟨n, n⟩

/-- The tokens complete the line and go on behind it. -/
def Completes (S : Scan) (ts : List Token) : Prop :=
  ∃ ks zs form s s' slots, Spells zs ks ts ∧ Phrase.form? (S.line.reverse ++ ks) = some form ∧
    S.slots = s :: slots ∧ s.after? form = some s' ∧ Accepts form.opens (s' :: slots) zs

/-- From inside of a line on, the characters are tokens that complete it. -/
def Inside (S : Scan) (cs : List Char) : Prop :=
  ∀ fuel p, S.Fits p → 3 * cs.length + 1 ≤ fuel → S.Completes (tokens fuel p cs)

/-- From the start of a line on, the characters are tokens of lines. -/
def Outside (S : Scan) (cs : List Char) : Prop :=
  ∀ fuel p, S.Fits p → 3 * cs.length + 2 ≤ fuel → Accepts S.headed S.slots (lineTokens fuel p cs)

/-- The text between quotes ends, and the line goes on behind it. -/
def InShort (S : Scan) (quote : Char) (cs : List Char) : Prop :=
  ∃ behind n, (∀ b, skipShort quote b cs = (some behind, b + n)) ∧ behind.length ≤ cs.length ∧
    (S.push .string).Inside behind

/-- The text between triple quotes ends, and the line goes on behind it. -/
def InLong (S : Scan) (quote : Char) (cs : List Char) : Prop :=
  ∃ behind n, (∀ b, skipLong quote b cs = some (behind, b + n)) ∧ behind.length ≤ cs.length ∧
    (S.push .string).Inside behind

/-- A character that a name may start with. -/
def isStart (c : Char) : Bool := c.isAlpha || c == '_'

/-- Characters of a name. -/
structure IsWord (w : List Char) : Prop where
  start : ∃ c rest, w = c :: rest ∧ isStart c = true
  chars : ∀ c ∈ w, isNameChar c = true

/-- The first character ends an operand. -/
def EndsOperand (cs : List Char) : Prop := ∃ c rest, cs = c :: rest ∧ endsOperand c = true

/-- From the state on, the characters are the rest of a module. -/
def Good (S : Scan) (cs : List Char) : Prop :=
  match S.mode with
  | .start n => S.Outside (List.replicate n ' ' ++ cs)
  | .inner => S.Inside cs
  | .word w => IsWord w → S.Inside (w ++ cs)
  | .name => ∀ w, IsWord w → isOpen w = false → S.Inside (w ++ cs)
  | .zero => S.Inside ('0' :: cs)
  | .number => ∀ d ds, (∀ c ∈ d :: ds, c.isDigit = true) → d ≠ '0' → S.Inside (d :: ds ++ cs)
  | .mark c => S.Inside (c :: cs)
  | .stars => S.Inside ('*' :: '*' :: cs)
  | .quoted q => isQuote q = true → ∀ w ∈ [[], ['f'], ['r']], S.Inside (w ++ q :: cs)
  | .empty q => isQuote q = true → ∀ w ∈ [[], ['f'], ['r']], S.Inside (w ++ q :: q :: cs)
  | .short q => isQuote q = true → S.InShort q cs
  | .escaped q => isQuote q = true → S.InShort q ('\\' :: cs)
  | .long q => isQuote q = true → S.InLong q cs
  | .closing q twice => isQuote q = true → S.InLong q (if twice then q :: q :: cs else q :: cs)
  | .longEscaped q => isQuote q = true → S.InLong q ('\\' :: cs)
  | .behind k => EndsOperand cs ∧ (S.push k).Inside cs
  | .text q => isQuote q = true → cs.head? ≠ some q ∧ S.InLong q cs
  | .comment own => if own then S.Outside (cs.dropWhile (· != '\n')).tail
    else S.Inside (cs.dropWhile (· != '\n'))

end Scan

end FlowMachine.Module
