import FlowMachine.Module.Number
import FlowMachine.Text.Quoted
import FlowMachine.Text.Word

/-!
# Tokens of a written module

A module text as a list of tokens. Indentation is turned into tokens of its own, and inside brackets
line breaks do not count. Where the text has no further token the list ends with the reason.
-/
namespace FlowMachine.Module

open FlowMachine.Text

/-- Why a text has no further token. -/
inductive LexFault where
  | unclosed (bracket : Char)
  | unmatched (bracket : Char)
  /-- A bracket closes one of another kind, whose line is given if it is another one. -/
  | mismatched (closer opener : Char) (line : Option Nat)
  | openString (line : Nat)
  | openLongString (line : Nat)
  | badUnindent
  | mixedTabs
  | badNumber (cause : NumberFault)
  | behindBackslash
  /-- The text ends behind a backslash. -/
  | endOfText
  | badCharacter (c : Char)
deriving DecidableEq, Repr

namespace LexFault

def message : LexFault → String
  | .unclosed bracket => s!"'{bracket}' was never closed"
  | .unmatched bracket => s!"unmatched '{bracket}'"
  | .mismatched closer opener line =>
    s!"closing parenthesis '{closer}' does not match opening parenthesis '{opener}'" ++
      (line.map fun n => s!" on line {n}").getD ""
  | .openString line => s!"unterminated string literal (detected at line {line})"
  | .openLongString line => s!"unterminated triple-quoted string literal (detected at line {line})"
  | .badUnindent => "unindent does not match any outer indentation level"
  | .mixedTabs => "inconsistent use of tabs and spaces in indentation"
  | .badNumber cause => cause.message
  | .behindBackslash => "unexpected character after line continuation character"
  | .endOfText => "unexpected EOF while parsing"
  | .badCharacter c =>
    let code := String.ofList ((hexDigits 4 c.toNat).map Char.toUpper)
    if isVisible c then s!"invalid character '{c}' (U+{code})"
    else s!"invalid non-printable character U+{code}"

/-- The fault is one of the space between tokens and of no token. -/
def isBetween : LexFault → Bool
  | .badUnindent => true
  | .mixedTabs => true
  | .behindBackslash => true
  | .endOfText => true
  | _ => false

end LexFault

inductive Lexeme where
  | name (word : String)
  | number
  | string (ofBytes formatted : Bool)
  | mark (text : String)
  | newline
  | indent
  | dedent
  | eof
  | bad (fault : LexFault)
deriving DecidableEq, Repr

/-- A lexeme with its line, and the number of brackets that are open behind it. -/
structure Token where
  lexeme : Lexeme
  line : Nat
  level : Nat := 0
deriving DecidableEq, Repr

/-- Operators and other marks; a longer one stands before a shorter one that it starts with. -/
def marks : List String :=
  ["**=", "//=", "<<=", ">>=", "...", "->", ":=", "**", "//", "<<", ">>", "<=", ">=",
   "==", "!=", "+=",
   "-=", "*=", "/=", "%=", "&=", "|=", "^=", "@=", "+", "-", "*", "/", "%", "@", "&", "|", "^", "~",
   "<", ">", "(", ")", "[", "]", "\x7b", "\x7d", ",", ":", ".", ";", "="]

def markAt? (cs : List Char) : Option (String × List Char) :=
  marks.findSome? fun mark => (behind? mark.toList cs).map fun rest => (mark, rest)

/-- The end of a string in one line, behind its opening quote: what follows it, or nothing, and the
line breaks inside it. -/
def skipShort (quote : Char) (breaks : Nat) : List Char → Option (List Char) × Nat
  | [] => (none, breaks)
  | ['\\', '\n'] => (none, breaks)
  | '\\' :: c :: cs => skipShort quote (if c == '\n' then breaks + 1 else breaks) cs
  | c :: cs =>
    if c == quote then (some cs, breaks)
    else if c == '\n' then (none, breaks)
    else skipShort quote breaks cs

/-- The end of a string between triple quotes. -/
def skipLong (quote : Char) (breaks : Nat) : List Char → Option (List Char × Nat)
  | [] => none
  | '\\' :: c :: cs => skipLong quote (if c == '\n' then breaks + 1 else breaks) cs
  | c :: cs =>
    if c == quote && [quote, quote].isPrefixOf cs then some (cs.drop 2, breaks)
    else skipLong quote (if c == '\n' then breaks + 1 else breaks) cs

/-- Letters that may stand in front of a string. -/
def isStringMark (cs : List Char) : Bool :=
  ["", "r", "b", "u", "f", "br", "rb", "fr", "rf"].contains (String.ofList (cs.map Char.toLower))

/-- Reads a string behind its opening quote. -/
def readString (quote : Char) (line : Nat) (cs : List Char) :
    Except LexFault (List Char × Nat) :=
  if [quote, quote].isPrefixOf cs then
    match skipLong quote 0 (cs.drop 2) with
    | some r => .ok r
    | none => .error (.openLongString (line + (cs.filter (· == '\n')).length -
        (if cs.getLast? == some '\n' then 1 else 0)))
  else
    match skipShort quote 0 cs with
    | (some behind, breaks) => .ok (behind, breaks)
    | (none, breaks) => .error (.openString (line + breaks))

/-- The width of an indentation, and its width when a tab counts as one blank. The two have to agree
on how lines are nested. -/
structure Indent where
  width : Nat := 0
  plain : Nat := 0
deriving DecidableEq, Repr

/-- Where the reader of tokens stands: the line, the open indentations and the open brackets with
their lines. -/
structure Place where
  line : Nat := 1
  indents : List Indent := [{}]
  brackets : List (Char × Nat) := []

/-- A lexeme at a place. -/
def Place.token (p : Place) (lexeme : Lexeme) : Token := ⟨lexeme, p.line, p.brackets.length⟩

/-- What a line starts with: its blanks, the lines that backslashes join to it, and what follows. -/
structure LineStart where
  indent : Indent := {}
  joined : Nat := 0
  rest : List Char := []

/-- Reads the blanks that a line starts with. The width in front of the first backslash counts,
unless it is zero. -/
def lineStart (first : Nat) (i : Indent) (joined : Nat) : List Char → LineStart
  | ' ' :: cs => lineStart first ⟨i.width + 1, i.plain + 1⟩ joined cs
  | '\t' :: cs => lineStart first ⟨(i.width / 8 + 1) * 8, i.plain + 1⟩ joined cs
  | '\\' :: '\n' :: c :: cs =>
    lineStart (if first == 0 then i.width else first) i (joined + 1) (c :: cs)
  | c :: cs =>
    if c.toNat == 12 then lineStart first {} joined cs
    else ⟨if first == 0 then i else ⟨first, first⟩, joined, c :: cs⟩
  | [] => ⟨i, joined, []⟩

def closes (closer opener : Char) : Bool :=
  (opener == '(' && closer == ')') || (opener == '[' && closer == ']') ||
    (opener == '{' && closer == '}')

/-- Pops the indentations that are wider than a width. -/
def unindent (width line : Nat) : List Indent → List Token × List Indent
  | [] => ([], [])
  | i :: rest =>
    if width < i.width then
      let more := unindent width line rest
      (⟨.dedent, line, 0⟩ :: more.1, more.2)
    else ([], i :: rest)

/-- The tokens of an indentation, or why there is none: the lines around it are nested otherwise. -/
def indentTokens (i : Indent) (line : Nat) (indents : List Indent) :
    Except LexFault (List Token × List Indent) :=
  match indents with
  | [] => .ok ([], [])
  | current :: _ =>
    if current.width < i.width then
      if current.plain < i.plain then .ok ([⟨.indent, line, 0⟩], i :: indents)
        else .error .mixedTabs
    else
      let popped := unindent i.width line indents
      match popped.2 with
      | [] => .error .badUnindent
      | outer :: _ =>
        if outer.width != i.width then .error .badUnindent
        else if outer.plain != i.plain then .error .mixedTabs
        else .ok popped

/-- The character can start or go on a name, or is wrong in one. -/
def isNamePart (c : Char) : Bool := c.isAlphanum || c == '_' || 0x80 ≤ c.toNat

/-- The first character of a word that keeps it from being a name. -/
def misfit? : List Char → Option Char
  | [] => none
  | c :: cs => if startsName c then cs.find? (!continuesName ·) else some c

/-- The fault of the innermost bracket that is open. -/
def Place.unclosed (p : Place) : List Token :=
  match p.brackets with
  | (bracket, line) :: _ => [⟨.bad (.unclosed bracket), line, 0⟩]
  | [] => []

/-- The fault of a text that ends where it has to go on. -/
def Place.cut (p : Place) : List Token :=
  if p.brackets.isEmpty then [p.token (.bad .endOfText)] else p.unclosed

mutual

/-- Reads tokens at the start of a line. -/
def lineTokens : Nat → Place → List Char → List Token
  | 0, _, _ => []
  | fuel + 1, p, cs =>
    let start := lineStart 0 {} 0 cs
    let p := { p with line := p.line + start.joined }
    match start.rest with
    | [] =>
      (p.indents.filter (·.width != 0)).map (fun _ => ⟨.dedent, p.line - 1, 0⟩) ++
        [⟨.eof, p.line - 1, 0⟩]
    | '\n' :: rest => lineTokens fuel { p with line := p.line + 1 } rest
    | '#' :: rest =>
      match rest.dropWhile (· != '\n') with
      | [] => lineTokens fuel { p with line := p.line + 1 } []
      | _ :: behind => lineTokens fuel { p with line := p.line + 1 } behind
    | body =>
      match indentTokens start.indent p.line p.indents with
      | .error fault => [p.token (.bad fault)]
      | .ok (ts, indents) => ts ++ tokens fuel { p with indents } body

/-- Reads tokens inside a line. -/
def tokens : Nat → Place → List Char → List Token
  | 0, _, _ => []
  | fuel + 1, p, cs =>
    match cs with
    | [] =>
      if p.brackets.isEmpty then
        p.token .newline :: lineTokens fuel { p with line := p.line + 1 } []
      else p.unclosed
    | '\n' :: rest =>
      if p.brackets.isEmpty then
        p.token .newline :: lineTokens fuel { p with line := p.line + 1 } rest
      else tokens fuel { p with line := p.line + 1 } rest
    | ['\\'] => p.cut
    | ['\\', '\n'] => p.cut
    | '\\' :: '\n' :: rest => tokens fuel { p with line := p.line + 1 } rest
    | '\\' :: _ => p.token (.bad .behindBackslash) :: p.unclosed
    | c :: rest =>
      if c == ' ' || c == '\t' || c.toNat == 12 then tokens fuel p rest
      else if c == '#' then tokens fuel p (rest.dropWhile (· != '\n'))
      else if c == '"' || c == '\'' then quoted fuel p [] c rest
      else if c.isDigit || (c == '.' && rest.head?.any Char.isDigit) then
        match Number.read cs with
        | .ok behind => p.token .number :: tokens fuel p behind
        | .error cause => [p.token (.bad (.badNumber cause))]
      else if isNamePart c then named fuel p (cs.takeWhile isNamePart) (cs.dropWhile isNamePart)
      else
        match markAt? cs with
        | none =>
          if c.toNat < 0x20 || c.toNat == 0x7F then [p.token (.bad (.badCharacter c))]
          else p.token (.mark (String.ofList [c])) :: tokens fuel p rest
        | some (text, behind) =>
          if c == '(' || c == '[' || c == '{' then
            let p := { p with brackets := (c, p.line) :: p.brackets }
            p.token (.mark text) :: tokens fuel p behind
          else if c == ')' || c == ']' || c == '}' then
            match p.brackets with
            | [] => [p.token (.bad (.unmatched c))]
            | (opener, openerLine) :: outer =>
              if closes c opener then
                let p := { p with brackets := outer }
                p.token (.mark text) :: tokens fuel p behind
              else
                let line := if openerLine == p.line then none else some openerLine
                [p.token (.bad (.mismatched c opener line))]
          else p.token (.mark text) :: tokens fuel p behind

/-- Reads tokens from a name on, or from a string whose marks the name is. -/
def named : Nat → Place → List Char → List Char → List Token
  | 0, _, _, _ => []
  | fuel + 1, p, word, behind =>
    match behind with
    | q :: inner =>
      if (q == '"' || q == '\'') && isStringMark word then quoted fuel p word q inner
      else plainName fuel p word behind
    | [] => plainName fuel p word behind

/-- Reads tokens from a name on. -/
def plainName : Nat → Place → List Char → List Char → List Token
  | 0, _, _, _ => []
  | fuel + 1, p, word, behind =>
    match misfit? word with
    | some c => [p.token (.bad (.badCharacter c))]
    | none => p.token (.name (String.ofList word)) :: tokens fuel p behind

/-- Reads tokens from a string on, behind its marks and its opening quote. -/
def quoted : Nat → Place → List Char → Char → List Char → List Token
  | 0, _, _, _, _ => []
  | fuel + 1, p, word, quote, cs =>
    let has (c : Char) : Bool := word.any (·.toLower == c)
    match readString quote p.line cs with
    | .ok (behind, breaks) =>
      p.token (.string (has 'b') (has 'f')) :: tokens fuel { p with line := p.line + breaks } behind
    | .error fault => [p.token (.bad fault)]

end

/-- The tokens of a module text, whose line breaks are line feeds. -/
def tokenList (cs : List Char) : List Token := lineTokens (3 * cs.length + 3) {} cs

end FlowMachine.Module
