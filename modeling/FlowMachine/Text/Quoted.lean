import FlowMachine.Text.HiddenTable

/-!
# Quoted literals

The literal of a text in the language of the written modules. It stands in single quotes, or in
double quotes when the text holds single quotes and no double ones. Backslashes and the chosen quote
are escaped, and characters without a visible form are spelled by number.
-/
namespace FlowMachine.Text

/-- The character stands for itself in a literal. -/
def isVisible (c : Char) : Bool :=
  if c.toNat < 0x80 then decide (0x20 ≤ c.toNat) && c.toNat != 0x7F
  else !hiddenIntervals.holds c.toNat

/-- The number in base sixteen, padded with zeros to a width. -/
def hexDigits (width n : Nat) : List Char :=
  let digits := Nat.toDigits 16 n
  List.replicate (width - digits.length) '0' ++ digits

/-- How one character is written inside a literal with the given quote. -/
def literalChar (quote c : Char) : List Char :=
  if c == quote || c == '\\' then ['\\', c]
  else if c == '\t' then ['\\', 't']
  else if c == '\n' then ['\\', 'n']
  else if c == '\r' then ['\\', 'r']
  else if isVisible c then [c]
  else if c.toNat < 0x100 then '\\' :: 'x' :: hexDigits 2 c.toNat
  else if c.toNat < 0x10000 then '\\' :: 'u' :: hexDigits 4 c.toNat
  else '\\' :: 'U' :: hexDigits 8 c.toNat

/-- The quote of a text's literal. -/
def quoteOf (cs : List Char) : Char :=
  if cs.contains '\'' && !cs.contains '"' then '"' else '\''

def literalChars (cs : List Char) : List Char :=
  let quote := quoteOf cs
  quote :: cs.flatMap (literalChar quote) ++ [quote]

/-- The quoted literal of a text. -/
def literal (s : String) : String := String.ofList (literalChars s.toList)

/-- The literal of a list of literals. -/
def literalList (items : List String) : String := "[" ++ ", ".intercalate items ++ "]"

/-- The literal of a tuple of literals: one item keeps a comma behind it. -/
def literalTuple : List String → String
  | [item] => "(" ++ item ++ ",)"
  | items => "(" ++ ", ".intercalate items ++ ")"

end FlowMachine.Text
