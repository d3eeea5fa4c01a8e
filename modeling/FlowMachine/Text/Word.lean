import FlowMachine.Text.DigitTable
import FlowMachine.Text.NameTable
import FlowMachine.Text.Search
import FlowMachine.Text.WordTable

/-!
# Characters of words and names, and digits
-/
namespace FlowMachine.Text

/-- Letters, digits and numerals of every script, and the underscore. -/
def isWord (c : Char) : Bool :=
  if c.toNat < 0x80 then c.isAlphanum || c == '_' else wordIntervals.holds c.toNat

/-- A name may start with the character. -/
def startsName (c : Char) : Bool :=
  let n := c.toNat
  if n < 0x80 then c.isAlpha || c == '_'
  else
    nameSignIntervals.holds n ||
      (wordIntervals.holds n && !namelessIntervals.holds n && !nameTailIntervals.holds n)

/-- A name may go on with the character. -/
def continuesName (c : Char) : Bool :=
  startsName c || if c.toNat < 0x80 then c.isDigit else nameTailIntervals.holds c.toNat

/-- Digits of every script, superscripts and the like included. -/
def isDigit (c : Char) : Bool := digitIntervals.holds c.toNat

/-- A word ends in front of the rest of the text: no word character follows. -/
def wordEnds (cs : List Char) : Bool :=
  match cs with
  | [] => true
  | c :: _ => !isWord c

/-- The rest of the text behind a leading word that is spelled exactly so. -/
def afterWord? (word : String) (cs : List Char) : Option (List Char) :=
  match behind? word.toList cs with
  | some rest => if wordEnds rest then some rest else none
  | none => none

end FlowMachine.Text
