import FlowMachine.Diagram.Assembly
import FlowMachine.Diagram.Block

/-!
# Reading a source

Every block of a source becomes one diagram. The first takes the name of the source, and the others
add their number to it.
-/
namespace FlowMachine

/-- The diagrams of a source and what was found while reading it. -/
structure Source where
  diagrams : List Diagram := []
  findings : List Finding := []
  path : Option String := none
  lineCount : Nat := 0
deriving DecidableEq, Repr

namespace Source

/-- The name of a source that has none. -/
def defaultName : String := "diagram"

def baseName : Option String → String
  | none => defaultName
  | some name => if name.isEmpty then defaultName else name

/-- The id of a block, counted from zero. -/
def blockId (base : String) (index : Nat) : String :=
  if index == 0 then base else s!"{base}_{index + 1}"

def noDiagram : Finding :=
  .warning "No flowchart diagram found" "no_diagram" none
    (some "Start the diagram with a line such as 'flowchart TD'")

/-- Reads one block. -/
def readBlock (options : ReadOptions) (id : String) (path : Option String) (b : Block) :
    Option Diagram × List Finding :=
  let lexed := b.read
  let built := Diagram.assemble options lexed.1 id path (some b.startLine)
  (built.1, lexed.2 ++ built.2)

/-- Reads blocks, of which the first has number `index`. -/
def readBlocks (options : ReadOptions) (base : String) (path : Option String) :
    Nat → List Block → List Diagram × List Finding
  | _, [] => ([], [])
  | index, b :: rest =>
    let here := readBlock options (blockId base index) path b
    let more := readBlocks options base path (index + 1) rest
    (here.1.toList ++ more.1, here.2 ++ more.2)

/-- Reads the text of a source. -/
def read (options : ReadOptions) (text : String) (name path : Option String) : Source :=
  let cs := text.toList
  let lineCount := (Text.lines cs).length
  match Block.ofText cs with
  | [] => { findings := [noDiagram], path, lineCount }
  | blocks =>
    let built := readBlocks options (baseName name) path 0 blocks
    { diagrams := built.1, findings := built.2, path, lineCount }

/-- Some block declares a node whose first declaration has a label to measure. -/
def measuresLabels (text : String) : Bool :=
  (Block.ofText text.toList).any fun b =>
    let refs := b.read.1.flatMap Statement.declarations
    refs.any fun ref =>
      (refs.find? (·.id == ref.id)).any fun first => first.label != some ""

def errors (s : Source) : List Finding := errorsOf s.findings

def warnings (s : Source) : List Finding := warningsOf s.findings

end Source

end FlowMachine
