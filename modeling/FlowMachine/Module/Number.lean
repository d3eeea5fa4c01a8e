/-!
# Numbers in a written module

A number is read as far as it goes: digits in a base, or decimal digits with a point, an exponent
and an imaginary mark. Single underscores may stand between digits. No letter may follow, unless it
starts a word that can stand behind a number.
-/
namespace FlowMachine.Module

/-- Why a number cannot be read. -/
inductive NumberFault where
  | badLiteral (kind : String)
  | badDigit (digit : Char) (kind : String)
  | leadingZeros
deriving DecidableEq, Repr

namespace NumberFault

def message : NumberFault → String
  | .badLiteral kind => s!"invalid {kind} literal"
  | .badDigit digit kind => s!"invalid digit '{digit}' in {kind} literal"
  | .leadingZeros =>
    "leading zeros in decimal integer literals are not permitted; " ++
      "use an 0o prefix for octal integers"

end NumberFault

namespace Number

/-- What is left behind a number. -/
abbrev Rest := Except NumberFault (List Char)

/-- A character that runs into a number. -/
def isJoined (c : Char) : Bool := c.isAlphanum || c == '_'

/-- Words that can stand directly behind a number, by their first letters. -/
def followers : List (List Char) :=
  ["and", "else", "for", "if", "in", "is", "or", "not"].map String.toList

/-- The end of a number: no name goes on from it. -/
def ends (kind : String) (cs : List Char) : Rest :=
  if followers.any (·.isPrefixOf cs) || !cs.head?.any isJoined then .ok cs
  else .error (.badLiteral kind)

/-- Passes digits with single underscores between them, the first of which is there. -/
def decimalTail : List Char → Rest
  | [] => .ok []
  | '_' :: c :: cs => if c.isDigit then decimalTail cs else .error (.badLiteral "decimal")
  | c :: cs =>
    if c.isDigit then decimalTail cs
    else if c == '_' then .error (.badLiteral "decimal")
    else .ok (c :: cs)

/-- Passes an imaginary mark and the end of a decimal number. -/
def imaginary (cs : List Char) : Rest :=
  match cs with
  | c :: rest => if c == 'j' || c == 'J' then ends "imaginary" rest else ends "decimal" cs
  | [] => .ok []

/-- Passes an exponent, if there is one. A letter alone belongs to what follows. -/
def exponent (cs : List Char) : Rest :=
  match cs with
  | e :: rest =>
    if e == 'e' || e == 'E' then
      match rest with
      | sign :: digits =>
        if sign == '+' || sign == '-' then
          if digits.head?.any Char.isDigit then (decimalTail digits).bind imaginary
          else .error (.badLiteral "decimal")
        else if sign.isDigit then (decimalTail rest).bind imaginary
        else ends "decimal" cs
      | [] => ends "decimal" cs
    else imaginary cs
  | [] => .ok []

/-- Passes what follows the whole part of a decimal number. -/
def fraction (cs : List Char) : Rest :=
  match cs with
  | '.' :: rest =>
    if rest.head?.any Char.isDigit then (decimalTail rest).bind exponent else exponent rest
  | _ => exponent cs

/-- Passes digits of a base behind its mark, of which there is one behind every underscore. -/
def basedTail (kind : String) (isDigit : Char → Bool) (fresh : Bool) : List Char → Rest
  | '_' :: cs => if fresh then .error (.badLiteral kind) else basedTail kind isDigit true cs
  | c :: cs =>
    if isDigit c then basedTail kind isDigit false cs
    else if c.isDigit then .error (.badDigit c kind)
    else if fresh then .error (.badLiteral kind)
    else ends kind (c :: cs)
  | [] => if fresh then .error (.badLiteral kind) else .ok []

/-- Passes digits of a base behind its mark, where an underscore may come first. -/
def based (kind : String) (isDigit : Char → Bool) (cs : List Char) : Rest :=
  match cs with
  | '_' :: rest => basedTail kind isDigit true rest
  | _ => basedTail kind isDigit true cs

def isHexDigit (c : Char) : Bool :=
  c.isDigit || ('a' ≤ c && c ≤ 'f') || ('A' ≤ c && c ≤ 'F')

/-- Passes zeros with single underscores between them. -/
def zeros : List Char → Rest
  | '_' :: c :: cs => if c.isDigit then zeros (c :: cs) else .error (.badLiteral "decimal")
  | ['_'] => .error (.badLiteral "decimal")
  | '0' :: cs => zeros cs
  | cs => .ok cs

/-- Passes a number that starts with a zero, behind that zero. Other digits behind zeros ask for a
fraction, an exponent or an imaginary mark. -/
def behindZero (cs : List Char) : Rest :=
  match cs with
  | c :: rest =>
    if c == 'x' || c == 'X' then based "hexadecimal" isHexDigit rest
    else if c == 'o' || c == 'O' then based "octal" (fun d => '0' ≤ d && d ≤ '7') rest
    else if c == 'b' || c == 'B' then based "binary" (fun d => d == '0' || d == '1') rest
    else
      (zeros cs).bind fun behind =>
        if behind.head?.any Char.isDigit then
          (decimalTail behind).bind fun tail =>
            if tail.head?.any fun c => ".eEjJ".toList.contains c then fraction tail
            else .error .leadingZeros
        else fraction behind
  | [] => .ok []

/-- Passes the number at the front of a text, which starts with a digit or with a point and a
digit. -/
def read (cs : List Char) : Rest :=
  match cs with
  | '.' :: _ => fraction cs
  | '0' :: rest => behindZero rest
  | _ => (decimalTail cs).bind fraction

end Number

end FlowMachine.Module
