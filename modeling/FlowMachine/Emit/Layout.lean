import FlowMachine.Machine
import FlowMachine.Path
import FlowMachine.Text.Blank
import FlowMachine.Text.Casing
import FlowMachine.Text.Quoted

/-!
# Layout of written modules

A module is written line by line. Free text stands in it in three ways: inside a docstring, behind a
comment mark, and as a quoted literal.
-/
namespace FlowMachine.Emit

open FlowMachine.Text

/-- Doubles every backslash. -/
def doubleBackslashes (cs : List Char) : List Char :=
  cs.flatMap fun c => if c == '\\' then ['\\', '\\'] else [c]

/-- Puts a backslash in front of each of three quotes in a row. -/
def shieldQuotes : List Char → List Char
  | [] => []
  | '"' :: '"' :: '"' :: cs => '\\' :: '"' :: '\\' :: '"' :: '\\' :: '"' :: shieldQuotes cs
  | c :: cs => c :: shieldQuotes cs

def docChars (cs : List Char) : List Char := shieldQuotes (doubleBackslashes cs)

/-- A text as it stands inside a docstring. -/
def doc (s : String) : String := String.ofList (docChars s.toList)

/-- A text on one line: its words with single spaces between them. -/
def comment (s : String) : String := String.ofList (joinChars [' '] (words s.toList))

/-- The name of a truth value. -/
def truth (b : Bool) : String := if b then "True" else "False"

/-- The literal of a text that may be missing. -/
def literalOr : Option String → String
  | some s => literal s
  | none => "None"

/-- The literal of a list of texts. -/
def listOf (items : List String) : String := literalList (items.map literal)

/-- The literal of a tuple of texts. -/
def tupleOf (items : List String) : String := literalTuple (items.map literal)

/-- The name of the file that a machine was drawn in, or nothing. -/
def sourceName (m : Machine) : String :=
  match m.sourcePath with
  | some path => if path.isEmpty then "" else Path.baseName path
  | none => ""

/-- The text of lines, each with a line feed behind it. -/
def document (lines : List String) : String := String.join (lines.map (· ++ "\n"))

/-- Texts in the order of their lower-case forms; equal ones keep their order. -/
def sortFolded (items : List String) : List String :=
  items.mergeSort fun a b => decide (lower a ≤ lower b)

/-- Texts in order. -/
def sortTexts (items : List String) : List String := items.mergeSort fun a b => decide (a ≤ b)

end FlowMachine.Emit
