import FlowMachine.Diagram.Graph
import FlowMachine.Finding

/-!
# Assembling a diagram

Statements are applied in order to a draft. A mention makes a node that is labelled with its own id;
the first declaration gives it its label and shape, and later declarations are reported. At the end
the initial node, the final nodes and the category are picked.
-/
namespace FlowMachine

/-- A number to compare with and the text it is shown as. -/
structure Limit where
  bound : Int
  text : String
deriving DecidableEq, Repr

def Limit.ofInt (n : Int) : Limit := ⟨n, toString n⟩

/-- How sources are read: whether a diagram without states gets a placeholder, and from which length
on labels are reported. -/
structure ReadOptions where
  placeholder : Bool := true
  labelLimit : Limit := .ofInt 50
deriving DecidableEq, Repr

/-- A diagram under construction. -/
structure Draft where
  nodes : List Node := []
  edges : List Edge := []
  styles : List (String × List String) := []
  findings : List Finding := []
deriving DecidableEq, Repr

namespace Draft

def node? (g : Draft) (id : String) : Option Node := g.nodes.find? (·.id == id)

def report (g : Draft) (fs : List Finding) : Draft := { g with findings := g.findings ++ fs }

/-- Changes the node with an id. -/
def modify (g : Draft) (id : String) (f : Node → Node) : Draft :=
  { g with nodes := g.nodes.map fun n => if n.id == id then f n else n }

/-- Makes sure that a node exists; a new one is labelled with its id. -/
def mention (g : Draft) (id : String) (line : Option Int) : Draft :=
  match g.node? id with
  | some _ => g
  | none => { g with nodes := g.nodes ++ [{ id, label := id, line, declared := false }] }

/-- Characters that a label should not hold. -/
def isSpecial (c : Char) : Bool := ['<', '>', '{', '}', '[', ']', '\\'].contains c

/-- What is reported about the label of a declaration. -/
def labelFindings (limit : Limit) (id label : String) (line : Option Int) : List Finding :=
  let shown := if label.isEmpty then id else label
  let length := label.length
  (if label.isEmpty then
    [.warning s!"State '{id}' has an empty label" "state_label" line
      (some "Give the state a descriptive label")]
  else if (length : Int) > limit.bound then
    [.warning s!"State label too long ({length} characters): {Text.takeText 20 label}..."
      "state_label" line (some s!"Keep labels under {limit.text} characters")]
  else []) ++
  (if shown.toList.any isSpecial then
    [.warning s!"State label contains special characters: {shown}" "state_label" line
      (some "Avoid <, >, \x7b, \x7d, [, ] and backslashes in labels")]
  else [])

/-- The node that a declaration describes. -/
def declaredNode (ref : NodeRef) (line : Option Int) : Node :=
  let given := ref.label.getD ref.id
  let label := if given.isEmpty then ref.id else given
  let shape := ref.shape.getD .rectangle
  { id := ref.id, label, shape, isFinal := shape == Shape.circle || Label.isFinal label, line }

/-- Declares a node. A node that was only mentioned keeps its place, its classes and its line. -/
def declare (limit : Limit) (g : Draft) (ref : NodeRef) (line : Option Int) : Draft :=
  let fresh := declaredNode ref line
  let found := labelFindings limit ref.id (ref.label.getD ref.id) line
  match g.node? ref.id with
  | none => { g with nodes := g.nodes ++ [fresh], findings := g.findings ++ found }
  | some old =>
    if old.declared then
      if ref.form.isSome then
        g.report [.warning s!"Duplicate state definition: {ref.id}" "duplicate_state" line
          (some s!"Keep a single definition of '{ref.id}' (first definition kept)")]
      else g
    else
      (g.modify ref.id fun old => { fresh with classes := old.classes, line := old.line }).report
        found

/-- An end of an edge declares its node when it gives it a form, and mentions it otherwise. -/
def endpoint (limit : Limit) (g : Draft) (ref : NodeRef) (line : Option Int) : Draft :=
  if ref.form.isSome then g.declare limit ref line else g.mention ref.id line

def connect (limit : Limit) (g : Draft) (source target : NodeRef) (label : String)
    (line : Option Int) : Draft :=
  let g := (g.endpoint limit source line).endpoint limit target line
  { g with edges := g.edges ++ [.ofLabel source.id target.id label line] }

/-- Defines the styles of a class; a later definition takes the place of an earlier one. -/
def define (styles : List (String × List String)) (name : String) (items : List String) :
    List (String × List String) :=
  if styles.any (·.1 == name) then
    styles.map fun entry => if entry.1 == name then (name, items) else entry
  else styles ++ [(name, items)]

def classify (line : Option Int) (name : String) (g : Draft) (id : String) : Draft :=
  (g.mention id line).modify id (·.withClass name)

/-- Applies a style directive. -/
def restyle (g : Draft) (id : String) (shape : Option String) (classes : List String)
    (line : Option Int) : Draft :=
  let g := g.mention id line
  let g := match shape with
    | none => g
    | some name =>
      match Shape.ofDirective? name with
      | none =>
        g.report [.warning s!"Unknown shape '{name}' for state '{id}'" "style_directive" line none]
      | some shape => g.modify id fun n =>
          { n with shape, isFinal := n.isFinal || shape == Shape.circle }
  g.modify id fun n => classes.foldl Node.withClass n

/-- Applies one statement. -/
def apply (limit : Limit) (g : Draft) : Statement → Draft
  | .node ref line => g.declare limit ref line
  | .edge source target label _ line => g.connect limit source target label line
  | .classDef name items _ => { g with styles := define g.styles name items }
  | .assign ids name line => ids.foldl (classify line name) g
  | .style id shape classes line => g.restyle id shape classes line

/-- The draft that statements describe. -/
def ofStatements (limit : Limit) (statements : List Statement) : Draft :=
  statements.foldl (apply limit) {}

/-- What is reported about the edges of a finished draft. -/
def edgeFindings (g : Draft) : List Finding :=
  g.edges.flatMap fun e =>
    (if e.source == e.target then
      [.warning s!"Self-transition detected: {e.source} -> {e.target}" "self_transition" e.line
        (some "Make sure the loop is intentional")]
    else []) ++
    (if (g.node? e.source).any (·.isFinal) then
      [.warning s!"Transition from final state: {e.source} -> {e.target}" "final_state_transition"
        e.line (some s!"Remove the transition or make '{e.source}' non-final")]
    else [])

end Draft

namespace Diagram

/-- Ids that make a node the initial one, whatever their case. -/
def openingNames : List String := ["start", "idle", "initial", "begin"]

/-- The initial node: the first with an initial name, or the first of all. -/
def initialNode? (nodes : List Node) : Option Node :=
  (nodes.find? fun n => openingNames.contains (Text.lower n.id)).or nodes.head?

/-- How often the classes of nodes name a category. -/
def tally (nodes : List Node) (c : Category) : Nat :=
  (nodes.flatMap (·.classes)).countP fun name => Category.ofTag? name == some c

/-- The category that the classes name most often; the priority decides between equals, and without
any it is `user`. -/
def majorityCategory (nodes : List Node) : Category :=
  let best := (Category.all.map (tally nodes)).foldl max 0
  if best == 0 then .user
  else (Category.priority.find? fun c => tally nodes c == best).getD .user

/-- The only node of a diagram that has none. -/
def placeholder (line : Option Int) : Node :=
  { id := "EmptyState", label := "Empty State", line }

/-- The diagram of a draft that has nodes. -/
def ofNodes (id : String) (sourcePath : Option String) (g : Draft) : Diagram :=
  let initial := ((initialNode? g.nodes).map (·.id)).getD ""
  let nodes := g.nodes.map fun n => { n with isInitial := n.id == initial }
  { id, displayName := Identifier.displayName id, category := majorityCategory nodes, nodes,
    edges := g.edges, initial, finals := (nodes.filter (·.isFinal)).map (·.id),
    styles := g.styles, sourcePath }

/-- Assembles the statements of one block. Without nodes there is a placeholder, or no diagram at
all when the options ask for none. -/
def assemble (options : ReadOptions) (statements : List Statement) (id : String)
    (sourcePath : Option String) (startLine : Option Int) : Option Diagram × List Finding :=
  let g := Draft.ofStatements options.labelLimit statements
  if g.nodes.isEmpty then
    if options.placeholder then
      let g := (g.report [.warning
        s!"Diagram '{id}' has no states; generated placeholder state 'EmptyState'" "empty_diagram"
        startLine (some "Add at least one node or edge to the diagram")])
      (some (ofNodes id sourcePath { g with nodes := [placeholder startLine] }), g.findings)
    else
      (none, g.findings ++
        [.warning s!"Diagram '{id}' has no states" "empty_diagram" startLine none])
  else (some (ofNodes id sourcePath g), g.findings ++ g.edgeFindings)

end Diagram

end FlowMachine
