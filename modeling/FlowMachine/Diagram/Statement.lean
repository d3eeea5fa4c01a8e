import FlowMachine.Diagram.Shape
import FlowMachine.Finding

/-!
# Statements of a diagram

One line of a diagram declares a node, draws a chain of edges, defines a class, assigns one, or
styles a node. The causes for which a line cannot be read stand beside them, with their wording.
-/
namespace FlowMachine

/-- A mention of a node. A bracketed form gives it a shape and a label. -/
structure NodeRef where
  id : String
  form : Option (Shape × String) := none
deriving DecidableEq, Repr

namespace NodeRef

def shape (r : NodeRef) : Option Shape := r.form.map Prod.fst

def label (r : NodeRef) : Option String := r.form.map Prod.snd

end NodeRef

/-- How an arrow is written: `-->|label|`, `-- label -->`, `-->`, or `->` with or without a
label. -/
inductive Arrow where
  | labeled
  | dashed
  | plain
  | single
deriving DecidableEq, Repr

def Arrow.name : Arrow → String
  | .labeled => "labeled"
  | .dashed => "dashed"
  | .plain => "plain"
  | .single => "single"

inductive Statement where
  | node (ref : NodeRef) (line : Option Int)
  | edge (source target : NodeRef) (label : String) (arrow : Arrow) (line : Option Int)
  | classDef (name : String) (styles : List String) (line : Option Int)
  | assign (nodeIds : List String) (className : String) (line : Option Int)
  | style (nodeId : String) (shape : Option String) (classes : List String) (line : Option Int)
deriving DecidableEq, Repr

/-- The mentions by which statements declare nodes, in order. -/
def Statement.declarations : Statement → List NodeRef
  | .node ref _ => [ref]
  | .edge source target _ _ _ => [source, target].filter (·.form.isSome)
  | _ => []

/-- What a closing bracket is missing from. -/
inductive Enclosure where
  | nodeLabel (id : String)
  | edgeLabel
  | dashedLabel
  | directive (id : String)
deriving DecidableEq, Repr

def Enclosure.describe : Enclosure → String
  | .nodeLabel id => s!"label of '{id}'"
  | .edgeLabel => "edge label"
  | .dashedLabel => "dashed edge label"
  | .directive id => s!"style directive of '{id}'"

/-- Why a line is no statement. -/
inductive Malformed where
  | unclosed (what : Enclosure) (closer : String)
  | noIdentifier (found : String)
  | badStateName (name : String)
  | unexpected (found : String)
  | behindDirective (id : String)
  | badClassDef (name : String)
  | noStyles (name : String)
  | incompleteAssignment
  | badClassName (name : String)
  | noTarget (source : String)
deriving DecidableEq, Repr

namespace Malformed

def message : Malformed → String
  | .unclosed what closer => s!"Unbalanced brackets in {what.describe}: missing '{closer}'"
  | .noIdentifier found => s!"Expected a node identifier at '{found}'"
  | .badStateName name => s!"Invalid state name '{name}'"
  | .unexpected found => s!"Unexpected text '{found}'"
  | .behindDirective id => s!"Unexpected text after style directive of '{id}'"
  | .badClassDef name => s!"Invalid class name in classDef: '{name}'"
  | .noStyles name => s!"classDef '{name}' has no styles"
  | .incompleteAssignment => "Class assignment needs node ids and a class name"
  | .badClassName name => s!"Invalid class name '{name}'"
  | .noTarget source => s!"Edge from '{source}' has no target"

/-- An invalid state name is an error, everything else a warning. -/
def severity : Malformed → Severity
  | .badStateName _ => .error
  | _ => .warning

def suggestion : Malformed → Option String
  | .unclosed what closer => some s!"Close the {what.describe} with '{closer}'"
  | .badStateName _ =>
    some "State names must start with a letter and contain only letters, digits, '_' or '-'"
  | .unexpected _ => some "Use 'A --> B', 'A -->|label| B' or 'A -- label --> B'"
  | .noStyles name => some s!"classDef {name} fill:#fff"
  | .incompleteAssignment => some "class Start,Menu user-machine"
  | _ => none

end Malformed

end FlowMachine
