import FlowMachine.Moment
import FlowMachine.Number.Binary64
import FlowMachine.Text.Quoted

/-!
# Data

Settings and manifests hold values of any kind, and a value of an unexpected kind is an answer of
its own. A datum is such a value, with the two texts it has: as shown in a message, and as the
literal it has inside a list or a mapping.
-/
namespace FlowMachine

/-- A key of a mapping. -/
inductive Key where
  | null
  | bool (b : Bool)
  | int (n : Int)
  | real (x : Binary64)
  | text (s : String)
  | moment (m : Moment)
deriving DecidableEq, Repr

namespace Key

/-- The literal of a key. -/
def literal : Key → String
  | .null => "None"
  | .bool b => if b then "True" else "False"
  | .int n => toString n
  | .real x => x.text
  | .text s => Text.literal s
  | .moment m => m.literal

/-- The value of a finite number as a fraction: a truth value counts as zero or one. -/
def ratio? : Key → Option (Int × Nat)
  | .bool b => some (if b then 1 else 0, 1)
  | .int n => some (n, 1)
  | .real x => x.ratio?
  | _ => none

/-- Two keys are one key of a mapping: numbers by their value, moments by their instant. -/
def same (a b : Key) : Bool :=
  match a.ratio?, b.ratio? with
  | some x, some y => x.1 * y.2 == y.1 * x.2
  | _, _ =>
    match a, b with
    | .moment m, .moment n => m.same n
    | _, _ => a == b

def isNumber : Key → Bool
  | .bool _ => true
  | .int _ => true
  | .real _ => true
  | _ => false

def text? : Key → Option String
  | .text s => some s
  | _ => none

/-- Of two keys that are no texts, one can come before the other: both are numbers, or moments of
one kind. -/
def ordersWith (a b : Key) : Bool :=
  match a, b with
  | .moment m, .moment n => m.kindName == n.kindName
  | _, _ => a.isNumber && b.isNumber

/-- One number is not greater than another. -/
def notAbove (a b : Key) : Bool :=
  match a.ratio?, b.ratio? with
  | some x, some y => decide (x.1 * y.2 ≤ y.1 * x.2)
  | _, _ => a == .real (.infinity true) || b == .real (.infinity false)

end Key

inductive Datum where
  | null
  | bool (b : Bool)
  | int (n : Int)
  | real (x : Binary64)
  | text (s : String)
  | moment (m : Moment)
  | list (items : List Datum)
  | map (entries : List (Key × Datum))
deriving Repr, Inhabited

/-- The datum that a key is. -/
def Key.toDatum : Key → Datum
  | .null => .null
  | .bool b => .bool b
  | .int n => .int n
  | .real x => .real x
  | .text s => .text s
  | .moment m => .moment m

namespace Datum

/-- The name of a datum's kind in messages. -/
def kindName : Datum → String
  | .null => "NoneType"
  | .bool _ => "bool"
  | .int _ => "int"
  | .real _ => "float"
  | .text _ => "str"
  | .moment m => m.kindName
  | .list _ => "list"
  | .map _ => "dict"

/-- The full name of a datum's kind: that of a moment has the name of its family in front. -/
def familyName : Datum → String
  | .moment m => "datetime." ++ m.kindName
  | d => d.kindName

/-- A datum counts as true unless it is nothing, false, zero or empty. -/
def truthy : Datum → Bool
  | .null => false
  | .bool b => b
  | .int n => n != 0
  | .real x => !x.isZero
  | .text s => !s.isEmpty
  | .moment _ => true
  | .list items => !items.isEmpty
  | .map entries => !entries.isEmpty

mutual

/-- The literal of a datum. -/
def literal : Datum → String
  | .null => "None"
  | .bool b => if b then "True" else "False"
  | .int n => toString n
  | .real x => x.text
  | .text s => Text.literal s
  | .moment m => m.literal
  | .list items => Text.literalList (literalItems items)
  | .map entries => "\x7b" ++ ", ".intercalate (literalEntries entries) ++ "\x7d"

def literalItems : List Datum → List String
  | [] => []
  | d :: rest => d.literal :: literalItems rest

def literalEntries : List (Key × Datum) → List String
  | [] => []
  | (k, d) :: rest => (k.literal ++ ": " ++ d.literal) :: literalEntries rest

end

/-- The datum as a message shows it: a text stands for itself, and a moment is written plainly. -/
def shown : Datum → String
  | .text s => s
  | .moment m => m.text
  | d => d.literal

/-- The value of a key in the entries of a mapping. -/
def lookup (entries : List (Key × Datum)) (name : String) : Option Datum :=
  entries.lookup (.text name)

/-- Sets the value of a key. A key that is there keeps its place and its spelling. -/
def insert (entries : List (Key × Datum)) (key : Key) (value : Datum) : List (Key × Datum) :=
  if entries.any (·.1.same key) then
    entries.map fun entry => if entry.1.same key then (entry.1, value) else entry
  else entries ++ [(key, value)]

/-- The value of a number that can be compared: a truth value counts as zero or one. -/
def floor? : Datum → Option Int
  | .bool b => some (if b then 1 else 0)
  | .int n => some n
  | .real x => x.floor?
  | _ => none

/-- A mapping with text keys. -/
def ofFields (fields : List (String × Datum)) : Datum :=
  .map (fields.map fun field => (.text field.1, field.2))

end Datum

end FlowMachine
