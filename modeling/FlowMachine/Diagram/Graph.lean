import FlowMachine.Diagram.Statement
import FlowMachine.Identifier
import FlowMachine.Label

/-!
# Diagrams

The graph that the statements of a block describe: nodes in the order of their first mention, and
edges in the order in which they are drawn.
-/
namespace FlowMachine

/-- A node. It is `declared` when a statement gave it a form of its own, and not only mentioned. -/
structure Node where
  id : String
  label : String
  shape : Shape := .rectangle
  classes : List String := []
  isInitial : Bool := false
  isFinal : Bool := false
  line : Option Int := none
  declared : Bool := true
deriving DecidableEq, Repr

/-- Adds a class to a node that does not have it. -/
def Node.withClass (n : Node) (name : String) : Node :=
  if n.classes.contains name then n else { n with classes := n.classes ++ [name] }

structure Edge where
  source : String
  target : String
  label : String := ""
  kind : Label.Kind := .systemAction
  guard : Option String := none
  action : Option String := none
  line : Option Int := none
deriving DecidableEq, Repr

/-- The edge that a label and its line describe. -/
def Edge.ofLabel (source target label : String) (line : Option Int) : Edge :=
  { source, target, label, kind := .ofLabel label, guard := Label.guard? label,
    action := Label.action? label, line }

/-- One diagram as a graph. -/
structure Diagram where
  id : String
  displayName : String
  category : Category := .user
  nodes : List Node := []
  edges : List Edge := []
  initial : String := ""
  finals : List String := []
  styles : List (String × List String) := []
  sourcePath : Option String := none
deriving DecidableEq, Repr

namespace Diagram

def nodeIds (d : Diagram) : List String := d.nodes.map (·.id)

def node? (d : Diagram) (id : String) : Option Node := d.nodes.find? (·.id == id)

/-- The edges that leave a node, in order. -/
def outgoing (d : Diagram) (id : String) : List Edge := d.edges.filter (·.source == id)

end Diagram

end FlowMachine
