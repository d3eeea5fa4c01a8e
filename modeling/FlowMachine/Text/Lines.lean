import FlowMachine.Text.Intervals

/-!
# Lines

A line ends at any of ten line breaks, of which a carriage return followed by a line feed is one.
A break at the end of the text opens no further line.
-/
namespace FlowMachine.Text

/-- The characters that end a line. -/
def breakIntervals : Intervals :=
  [(0x0A, 0x0D), (0x1C, 0x1E), (0x85, 0x85), (0x2028, 0x2029)]

def isBreak (c : Char) : Bool := breakIntervals.holds c.toNat

/-- Puts a character in front of the first line. -/
def consLine (c : Char) : List (List Char) → List (List Char)
  | [] => [[c]]
  | line :: rest => (c :: line) :: rest

/-- The lines of a text, without their breaks. -/
def lines : List Char → List (List Char)
  | [] => []
  | '\r' :: '\n' :: cs => [] :: lines cs
  | c :: cs => if isBreak c then [] :: lines cs else consLine c (lines cs)

/-- Pairs each line with its number, counted from `n`. -/
def numberFrom (n : Nat) : List (List Char) → List (Nat × List Char)
  | [] => []
  | line :: rest => (n, line) :: numberFrom (n + 1) rest

/-- The lines of a text with their numbers, counted from one. -/
def numberedLines (cs : List Char) : List (Nat × List Char) := numberFrom 1 (lines cs)

/-- Carriage returns become line feeds, and a pair of both becomes one line feed. -/
def unifyBreaks : List Char → List Char
  | [] => []
  | '\r' :: '\n' :: cs => '\n' :: unifyBreaks cs
  | '\r' :: cs => '\n' :: unifyBreaks cs
  | c :: cs => c :: unifyBreaks cs

end FlowMachine.Text
