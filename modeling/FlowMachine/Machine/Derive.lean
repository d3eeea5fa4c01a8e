import FlowMachine.Diagram.Graph
import FlowMachine.Machine

/-!
# From diagram to machine

Nodes become states and edges become transitions. The category of the diagram decides what the
machine remembers, what it does on entering a state and which actors it talks to; the labels of the
edges give events, guards and actions.
-/
namespace FlowMachine

/-- Which parts of a machine are derived. -/
structure DeriveOptions where
  context : Bool := true
  events : Bool := true
  guards : Bool := true
  actions : Bool := true
  actors : Bool := true
deriving DecidableEq, Repr

namespace Category

/-- What a machine of the category remembers in any case. -/
def context : Category → List ContextField
  | .user =>
    [{ name := "phone_number", kind := .text, default := "\"\"", doc := "Caller phone number" },
     { name := "session_id", kind := .text, default := "\"\"", doc := "Session identifier" }]
  | .agent =>
    [{ name := "agent_id", kind := .text, default := "\"\"", doc := "Agent identifier" },
     { name := "agent_verified", kind := .bool, default := "False",
       doc := "Agent credentials verified" }]
  | .info =>
    [{ name := "current_page", kind := .number, default := "1", doc := "Current information page" },
     { name := "total_pages", kind := .number, default := "1", doc := "Total information pages" }]
  | .account =>
    [{ name := "account_id", kind := .text, default := "\"\"", doc := "Account identifier" },
     { name := "balance", kind := .number, default := "0", optional := true,
       doc := "Account balance" }]
  | .core => [{ name := "route", kind := .text, default := "\"\"", doc := "Selected route" }]

/-- The check that a machine of the category makes on entering a state. -/
def entryAction? : Category → Option String
  | .user => some "validate_user_session"
  | .agent => some "validate_agent_credentials"
  | _ => none

/-- The actor that a machine of the category talks to. -/
def actor? : Category → Option String
  | .user => some "user_service"
  | .agent => some "agent_service"
  | _ => none

def description : Category → String
  | .info => "information service"
  | .user => "authenticated user service"
  | .agent => "agent service"
  | .account => "account management"
  | .core => "core routing"

/-- The import lines of a machine module. -/
def imports (c : Category) : List String :=
  ["import copy", "import logging"] ++ (if c == .user then ["import re"] else []) ++
  ["from dataclasses import asdict, dataclass, field",
   "from typing import Any, Dict, List, Optional",
   "from transitions.extensions import HierarchicalMachine",
   "from transitions.extensions.nesting import NestedState"]

end Category

/-- What comes with an event of a kind of transition. -/
def Label.Kind.payload : Label.Kind → List PayloadField
  | .userInput => [{ name := "input", kind := .text }]
  | .error => [{ name := "error", kind := .text }]
  | .external => [{ name := "data", kind := .anything, optional := true }]
  | _ => []

namespace Machine

def entryTrace : String := "log_state_entry"

def sessionCleanup : String := "cleanup_session"

/-- Actions with a body of their own. -/
def standardActions : List String :=
  [entryTrace, sessionCleanup, "validate_user_session", "validate_agent_credentials"]

/-- The event of an edge whose label names none. -/
def unnamedEvent : String := "UNKNOWN"

def eventOf (e : Edge) : String :=
  let name := Label.eventName e.label
  if name.isEmpty then unnamedEvent else name

/-- The non-empty names, each at its first place. -/
def distinct (names : List String) : List String := (names.filter (!·.isEmpty)).eraseDups

/-- The text of a reference that is given and not empty. -/
def given (reference : Option String) : Option String := reference.filter (!·.isEmpty)

/-- The method of a guard; names of actions with a body of their own are kept free. -/
def guardMethodName (guard : String) : String := Identifier.method guard "guard" standardActions

/-- The methods that the guards of the edges need; a conditional edge needs one for its source. -/
def guardsOf (edges : List Edge) : List String :=
  distinct (edges.flatMap fun e =>
    (given e.guard).toList.map guardMethodName ++
    (if e.kind == .conditional then [s!"is_{Identifier.snake e.source}_valid"] else []))

/-- The transition of an edge, where `taken` are the names of guards. -/
def transitionOf (taken : List String) (e : Edge) : Transition where
  event := eventOf e
  target := some e.target
  guard := (given e.guard).map guardMethodName
  actions := (given e.action).toList.map fun action => Identifier.method action "action" taken

/-- The state of a node. -/
def stateOf (d : Diagram) (taken : List String) (n : Node) : State where
  name := n.id
  kind := if n.isFinal then .final else .normal
  entry := entryTrace :: d.category.entryAction?.toList
  exit := if n.isFinal then [sessionCleanup] else []
  transitions := (d.outgoing n.id).map (transitionOf taken)
  doc := n.label

def statesOf (d : Diagram) : List State := d.nodes.map (stateOf d (guardsOf d.edges))

/-- Everything that states do on entry, on exit and in transitions. -/
def actionsOf (states : List State) : List String :=
  distinct (states.flatMap fun s => s.entry ++ s.exit ++ s.transitions.flatMap (·.actions))

/-- The event that an edge adds to the catalog, if its label names one. -/
def eventSpec? (e : Edge) : Option Event :=
  let name := Label.eventName e.label
  if name.isEmpty then none
  else
    let kind := String.ofList (Text.replaceAll ['_'] [' '] e.kind.name.toList)
    some { name, payload := e.kind.payload, doc := s!"{kind} event: {e.label}" }

/-- Appends an event whose name is new. -/
def addEvent (events : List Event) (e : Event) : List Event :=
  if events.any (·.name == e.name) then events else events ++ [e]

/-- The catalog of events; the first edge with an event describes it. -/
def eventsOf (edges : List Edge) : List Event := (edges.filterMap eventSpec?).foldl addEvent []

/-- A machine with more states than this counts its steps. -/
def stepThreshold : Nat := 3

def contextOf (d : Diagram) : List ContextField :=
  d.category.context ++
  (if d.nodes.length > stepThreshold then
    [{ name := "current_step", kind := .number, default := "1",
       doc := "Current step in a multi-step flow" }]
  else []) ++
  [{ name := "error", kind := .text, default := "None", optional := true, nullable := true,
     doc := "Last error message" }] ++
  (if d.edges.any (·.kind == .userInput) then
    [{ name := "user_input", kind := .text, default := "\"\"", optional := true,
       doc := "Last user input" }]
  else [])

def actorsOf (d : Diagram) : List String :=
  (if d.edges.any (·.kind == .external) then ["external_service"] else []) ++
    d.category.actor?.toList

/-- The machine of a diagram. -/
def derive (o : DeriveOptions) (d : Diagram) : Machine :=
  let id := Identifier.machineId d.id
  let states := statesOf d
  { id
    displayName := if d.displayName.isEmpty then Identifier.displayName d.id else d.displayName
    category := d.category
    moduleName := Identifier.snake id
    className := Identifier.className id
    description :=
      s!"Auto-generated {d.category.description} machine with {d.nodes.length} states " ++
      s!"and {d.edges.length} transitions."
    initial := d.initial
    context := if o.context then contextOf d else []
    events := if o.events then eventsOf d.edges else []
    states
    guards := if o.guards then guardsOf d.edges else []
    actions := if o.actions then actionsOf states else []
    actors := if o.actors then actorsOf d else []
    imports := d.category.imports
    sourcePath := d.sourcePath }

end Machine

end FlowMachine
