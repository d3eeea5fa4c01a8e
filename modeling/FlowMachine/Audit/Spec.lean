import FlowMachine.Diagram.Graph

/-!
# Machines as the audit sees them

The rules are written against a plain description of a machine, in which ids, categories, initial
states and targets may be missing.
-/
namespace FlowMachine.Audit

structure Transition where
  event : String
  target : Option String
deriving DecidableEq, Repr

structure State where
  name : String
  isFinal : Bool := false
  transitions : List Transition := []
  description : String := ""
deriving DecidableEq, Repr

structure Spec where
  id : Option String
  name : String
  category : Option String
  initial : Option String
  states : List State := []
  source : String := ""
deriving DecidableEq, Repr

/-- The event of an edge without one. -/
def defaultEvent : String := "NEXT"

/-- The event of an edge. -/
def eventOf (e : Edge) : String :=
  let name := Label.eventName e.label
  if name.isEmpty then defaultEvent else name

/-- The description of a diagram. -/
def Spec.ofDiagram (d : Diagram) : Spec where
  id := some d.id
  name := d.displayName
  category := some d.category.name
  initial := some d.initial
  states := d.nodes.map fun n =>
    ⟨n.id, n.isFinal, (d.outgoing n.id).map fun e => ⟨eventOf e, some e.target⟩, n.label⟩
  source := d.sourcePath.getD ""

end FlowMachine.Audit
