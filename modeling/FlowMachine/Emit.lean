import FlowMachine.Emit.Boundaries
import FlowMachine.Emit.Demo
import FlowMachine.Emit.MachineModule
import FlowMachine.Emit.Service
import FlowMachine.Emit.Smoke
import FlowMachine.Emit.Transitions
import FlowMachine.Module.Check

/-!
# Documents of a machine

A machine is written as up to six documents: its module, three test suites, a demo and a service. A
document goes into the directory of the machine's category, under a name made from the module name.
-/
namespace FlowMachine

/-- The documents that can be written about a machine. -/
inductive Document where
  | machine
  | smokeTests
  | transitionTests
  | errorTests
  | demo
  | service
deriving DecidableEq, Repr

namespace Document

/-- All documents, in the order in which they are written. -/
def all : List Document := [.machine, .smokeTests, .transitionTests, .errorTests, .demo, .service]

def name : Document → String
  | .machine => "machine"
  | .smokeTests => "smoke_tests"
  | .transitionTests => "transition_tests"
  | .errorTests => "error_tests"
  | .demo => "demo"
  | .service => "service"

def ofName? (s : String) : Option Document := all.find? (·.name == s)

def fileKind : Document → FileKind
  | .machine => .machine
  | .demo => .demo
  | .service => .service
  | _ => .test

/-- The name of the file for a module name. -/
def fileName (d : Document) (module : String) : String :=
  match d with
  | .machine => s!"{module}.py"
  | .smokeTests => s!"test_{module}.py"
  | .transitionTests => s!"test_{module}_transitions.py"
  | .errorTests => s!"test_{module}_errors.py"
  | .demo => s!"{module}_demo.py"
  | .service => s!"{module}_service.py"

/-- The documents of a selection, in order and each once. -/
def select (chosen : List Document) : List Document := all.filter chosen.contains

end Document

/-- How documents are written. A document can be unavailable, with a reason. -/
structure EmitOptions where
  comprehensive : Bool := true
  maxInputLength : String := "1000"
  unavailable : Document → Option String := fun _ => none

namespace Document

/-- The text of a document. -/
def text (o : EmitOptions) (m : Machine) : Document → String
  | .machine => Emit.machineModule m
  | .smokeTests => Emit.smokeSuite o.comprehensive m
  | .transitionTests => Emit.transitionSuite m
  | .errorTests => Emit.boundarySuite m
  | .demo => Emit.demoScript m
  | .service => Emit.sessionService o.maxInputLength m

/-- Where a document of a machine goes below an output directory. -/
def path (d : Document) (m : Machine) (directory : Path) : Path :=
  (directory.join (.ofText m.category.directory)).join (.ofText (d.fileName m.moduleName))

/-- The file of a document. -/
def file (o : EmitOptions) (m : Machine) (directory : Path) (d : Document) : OutputFile where
  path := (d.path m directory).toText
  kind := d.fileKind
  content := d.text o m
  machineId := m.id
  document := d.name

/-- Writes a document, unless it is unavailable. -/
def emit (o : EmitOptions) (m : Machine) (directory : Path) (d : Document) :
    Except Fault OutputFile :=
  match o.unavailable d with
  | some reason => .error (.notRendered d.name m.id reason)
  | none => .ok (d.file o m directory)

end Document

end FlowMachine
