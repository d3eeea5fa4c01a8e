import FlowMachine.Text.Blank
import FlowMachine.Text.DigitTable

/-!
# Numerals

An integer written out: an optional sign and decimal digits of any script, with single underscores
between them and blanks around them.
-/
namespace FlowMachine.Numeral

/-- The value of a decimal digit. -/
def digit? (c : Char) : Option Nat :=
  (Text.decimalZeros.find? fun first =>
    decide (first ≤ c.toNat) && decide (c.toNat < first + 10)).map fun first => c.toNat - first

/-- A blank that may stand around a numeral: the separators of ASCII may not. -/
def isMargin (c : Char) : Bool := Text.isBlank c && !(0x1C ≤ c.toNat && c.toNat ≤ 0x1F)

/-- Reads digits with single underscores between them. -/
def digits? : List Char → Option (List Nat)
  | [] => none
  | [c] => (digit? c).map ([·])
  | c :: '_' :: rest =>
    match digit? c, digits? rest with
    | some d, some ds => some (d :: ds)
    | _, _ => none
  | c :: rest =>
    match digit? c, digits? rest with
    | some d, some ds => some (d :: ds)
    | _, _ => none

/-- More digits than this are refused. -/
def maxDigits : Nat := 4300

def value (digits : List Nat) : Nat := digits.foldl (fun n d => n * 10 + d) 0

/-- Reads a numeral without a sign. -/
def natural? (cs : List Char) : Option Nat :=
  match digits? cs with
  | some digits => if digits.length ≤ maxDigits then some (value digits) else none
  | none => none

/-- Reads a numeral. -/
def integer? (cs : List Char) : Option Int :=
  match Text.dropEndWhile isMargin (cs.dropWhile isMargin) with
  | '-' :: rest => (natural? rest).map fun n => -(n : Int)
  | '+' :: rest => (natural? rest).map fun n => (n : Int)
  | rest => (natural? rest).map fun n => (n : Int)

end FlowMachine.Numeral
