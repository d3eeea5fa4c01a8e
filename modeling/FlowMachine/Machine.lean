import FlowMachine.Diagram.Shape
import FlowMachine.Number.Total

/-!
# Machines

The full description of one state machine, from which all of its modules are written: what it
remembers, the events it knows, its states with their transitions, and the names of its guards,
actions and actors.
-/
namespace FlowMachine

/-- What a field holds. -/
inductive FieldKind where
  | text
  | number
  | bool
  | anything
deriving DecidableEq, Repr

namespace FieldKind

def name : FieldKind → String
  | .text => "text"
  | .number => "number"
  | .bool => "bool"
  | .anything => "opaque"

def ofName? : String → Option FieldKind
  | "text" => some .text
  | "number" => some .number
  | "bool" => some .bool
  | "opaque" => some .anything
  | _ => none

/-- The type of such a field in the written modules. -/
def typeName : FieldKind → String
  | .text => "str"
  | .number => "int"
  | .bool => "bool"
  | .anything => "Any"

end FieldKind

inductive StateKind where
  | normal
  | final
  | parallel
  | compound
deriving DecidableEq, Repr

namespace StateKind

def name : StateKind → String
  | .normal => "normal"
  | .final => "final"
  | .parallel => "parallel"
  | .compound => "compound"

def ofName? : String → Option StateKind
  | "normal" => some .normal
  | "final" => some .final
  | "parallel" => some .parallel
  | "compound" => some .compound
  | _ => none

end StateKind

/-- A value that the machine remembers. The default is a literal of the written modules. -/
structure ContextField where
  name : String
  kind : FieldKind
  default : String
  optional : Bool := false
  nullable : Bool := false
  doc : String := ""
deriving DecidableEq, Repr

/-- The type of a field in the written modules. -/
def ContextField.annotation (f : ContextField) : String :=
  if f.nullable then s!"Optional[{f.kind.typeName}]" else f.kind.typeName

/-- A value that comes with an event. -/
structure PayloadField where
  name : String
  kind : FieldKind
  optional : Bool := false
deriving DecidableEq, Repr

structure Event where
  name : String
  payload : List PayloadField := []
  doc : String := ""
deriving DecidableEq, Repr

structure Transition where
  event : String
  target : Option String := none
  guard : Option String := none
  actions : List String := []
deriving DecidableEq, Repr

structure State where
  name : String
  kind : StateKind := .normal
  entry : List String := []
  exit : List String := []
  transitions : List Transition := []
  doc : String := ""
deriving DecidableEq, Repr

structure Machine where
  id : String
  displayName : String
  category : Category
  moduleName : String
  className : String
  description : String := ""
  initial : String
  context : List ContextField := []
  events : List Event := []
  states : List State := []
  guards : List String := []
  actions : List String := []
  actors : List String := []
  imports : List String := []
  sourcePath : Option String := none
deriving DecidableEq, Repr

namespace Machine

def finals (m : Machine) : List String := (m.states.filter (·.kind == .final)).map (·.name)

def transitionCount (m : Machine) : Nat := total (m.states.map (·.transitions.length))

def state? (m : Machine) (name : String) : Option State := m.states.find? (·.name == name)

/-- States that no transition leaves. -/
def terminals (m : Machine) : List String :=
  (m.states.filter (·.transitions.isEmpty)).map (·.name)

def eventNames (m : Machine) : List String := m.events.map (·.name)

def contextNames (m : Machine) : List String := m.context.map (·.name)

end Machine

end FlowMachine
