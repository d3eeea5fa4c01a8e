import FlowMachine.Datum.Yaml.Node
import FlowMachine.Datum.Yaml.Value

/-!
# YAML

Data from a YAML text of one document. A name stands for the node that it was given to before. Of
two entries of a mapping with one key, the last gives the value, and entries that are merged into a
mapping stand in front of its own.

A document with several faults tells the one that lies least deep, and of these the first.
-/
namespace FlowMachine.Yaml

/-- The nodes that names stand for. -/
abbrev Names := List (String × Node)

mutual

/-- Puts for every name the node that it stands for. A name is given once and before it is used. -/
def substitute (names : Names) : Node → Option (Node × Names)
  | .scalar tag s => some (.scalar tag s, names)
  | .alias name => (names.lookup name).map (·, names)
  | .anchored name node =>
    if (names.lookup name).isSome then none
    else
      match substitute names node with
      | none => none
      | some (node, names) =>
        if (names.lookup name).isSome then none else some (node, (name, node) :: names)
  | .list tag items => (substituteItems names items).map fun r => (.list tag r.1, r.2)
  | .map tag entries => (substituteEntries names entries).map fun r => (.map tag r.1, r.2)

def substituteItems (names : Names) : List Node → Option (List Node × Names)
  | [] => some ([], names)
  | node :: rest =>
    match substitute names node with
    | none => none
    | some (node, names) => (substituteItems names rest).map fun r => (node :: r.1, r.2)

def substituteEntries (names : Names) :
    List (Node × Node) → Option (List (Node × Node) × Names)
  | [] => some ([], names)
  | (key, value) :: rest =>
    match substitute names key with
    | none => none
    | some (key, names) =>
      match substitute names value with
      | none => none
      | some (value, names) =>
        (substituteEntries names rest).map fun r => ((key, value) :: r.1, r.2)

end

namespace Node

def tag : Node → Tag
  | .scalar tag _ => tag
  | .list tag _ => tag
  | .map tag _ => tag
  | .alias _ => .unknown
  | .anchored _ node => node.tag

mutual

/-- The nodes of a node, itself included. -/
def size : Node → Nat
  | .list _ items => sizeItems items + 1
  | .map _ entries => sizeEntries entries + 1
  | .anchored _ node => node.size + 1
  | _ => 1

def sizeItems : List Node → Nat
  | [] => 0
  | node :: rest => node.size + sizeItems rest

def sizeEntries : List (Node × Node) → Nat
  | [] => 0
  | (key, value) :: rest => key.size + value.size + sizeEntries rest

end

/-- The text of a node where a scalar is needed. A mapping can name the one that it stands for. -/
def text? : Nat → Node → Option String
  | 0, _ => none
  | fuel + 1, node =>
    match node with
    | .scalar _ s => some s
    | .map _ entries => (entries.find? (·.1.tag == .value)).bind fun entry => text? fuel entry.2
    | _ => none

def entries? : Node → Option (List (Node × Node))
  | .map _ entries => some entries
  | _ => none

mutual

/-- The entries of a mapping with those that are merged into it in front. -/
def flatten : Nat → List (Node × Node) → Option (List (Node × Node))
  | 0, _ => none
  | fuel + 1, entries =>
    let isMerge (entry : Node × Node) : Bool := entry.1.tag == .merge
    ((entries.filter isMerge).mapM fun entry => merged fuel entry.2).map fun lists =>
      lists.flatten ++ entries.filter (!isMerge ·)

/-- The entries that a node gives to the mapping it is merged into. Of a list of mappings the last
stands in front. -/
def merged : Nat → Node → Option (List (Node × Node))
  | 0, _ => none
  | fuel + 1, node =>
    match node with
    | .map _ entries => flatten fuel entries
    | .list _ items =>
      (items.mapM fun item => (entries? item).bind (flatten fuel)).map fun lists =>
        lists.reverse.flatten
    | _ => none

end

end Node

/-- What is built, or a fault and how deep it lies. -/
abbrev Built (α : Type) := Except (Nat × Fault) α

namespace Built

def fail (depth : Nat) (fault : Fault) : Built α := .error (depth, fault)

/-- Two results together. Of two faults the one that lies less deep is told. -/
def both (a : Built α) (b : Built β) : Built (α × β) :=
  match a, b with
  | .ok a, .ok b => .ok (a, b)
  | .error e, .ok _ => .error e
  | .ok _, .error e => .error e
  | .error e, .error e' => if e'.1 < e.1 then .error e' else .error e

/-- All results together. -/
def all : List (Built α) → Built (List α)
  | [] => .ok []
  | a :: rest => (both a (all rest)).map fun r => r.1 :: r.2

end Built

/-- The key that a datum is, unless it is a list or a mapping. -/
def keyOf? : Datum → Option Key
  | .null => some .null
  | .bool b => some (.bool b)
  | .int n => some (.int n)
  | .real x => some (.real x)
  | .text s => some (.text s)
  | .moment m => some (.moment m)
  | _ => none

/-- A list or a mapping, which is no key. -/
def Tag.isCollection : Tag → Bool
  | .list => true
  | .map => true
  | .pairs => true
  | _ => false

/-- A key that marks a default value is a text. -/
def asKey : Node → Node
  | .scalar .value s => .scalar .text s
  | node => node

/-- The entry of a mapping that stands for a pair. -/
def pairOf? : Node → Option (Node × Node)
  | .map _ [pair] => some pair
  | _ => none

/-- The datum of a node at a depth. What a collection holds lies one deeper than itself. -/
def build : Nat → Nat → Node → Built Datum
  | 0, depth, _ => .fail depth .malformed
  | fuel + 1, depth, node =>
    let inner (node : Node) : Built Datum := build fuel (depth + 1) node
    let malformed : Built Datum := .fail (depth + 1) .malformed
    match node.tag, node with
    | .list, .list _ items => (Built.all (items.map inner)).map .list
    | .map, .map _ entries =>
      match Node.flatten fuel entries with
      | none => malformed
      | some entries =>
        let parts := entries.map fun entry =>
          let key := asKey entry.1
          Built.both (if key.tag.isCollection then malformed else inner key) (inner entry.2)
        (Built.all parts).map fun parts =>
          .map (parts.foldl (fun entries part =>
            match keyOf? part.1 with
            | some key => Datum.insert entries key part.2
            | none => entries) [])
    | .pairs, .list _ items =>
      let parts := items.map fun item => match pairOf? item with
        | some pair => (Built.both (inner pair.1) (inner pair.2)).map fun r => .list [r.1, r.2]
        | none => malformed
      (Built.all parts).map .list
    | tag, node =>
      if tag.isCollection then malformed
      else
        match node.text? fuel with
        | none => .fail depth .malformed
        | some s => (scalarOf tag s).mapError (depth, ·)

/-- Reads a text as one datum. A text without a document is nothing. -/
def read (cs : List Char) : Except Fault Datum := do
  match ← Node.readDocument (← orMalformed (tokens? cs)) with
  | none => return .null
  | some node =>
    let (node, _) ← orMalformed (substitute [] node)
    (build (3 * node.size + 1) 0 node).mapError (·.2)

end FlowMachine.Yaml
