import FlowMachine.Check
import FlowMachine.Diagram.Block
import FlowMachine.Lint.Brackets
import FlowMachine.Lint.Chain

/-!
# Linting the text of a diagram

The lint looks at the text itself. It checks the fences around diagrams, the declaration of each
diagram, and line by line the statements, their brackets, their names and their classes. Text
without fences is linted as one diagram from its first declaration on.
-/
namespace FlowMachine.Lint

open FlowMachine.Text

/-- A numbered line of a diagram, trimmed. -/
abbrev Line := Nat × List Char

/-- What one diagram of the text is: the line that opens it and its lines. -/
structure Region where
  start : Nat
  lines : List Line
deriving DecidableEq, Repr

def fenceStart : List Char := "```mermaid".toList

def fenceEnd : List Char := "```".toList

/-- The line starts with a word that declares a flowchart. -/
def declares (line : List Char) : Bool :=
  Block.keywords.any fun word => (afterWord? word line).isSome

def directions : List String := ["TD", "TB", "BT", "RL", "LR"]

/-- The line declares a flowchart with a known direction. -/
def isDeclaration (line : List Char) : Bool :=
  Block.keywords.any fun word =>
    match behind? word.toList line with
    | none => false
    | some rest =>
      rest.head?.any isBlank && directions.any fun direction =>
        match behind? direction.toList (trimStart rest) with
        | none => false
        | some tail =>
          match trimStart tail with
          | [] => true
          | [';'] => true
          | _ => false

def hasText (lines : List Line) : Bool := lines.any fun line => !line.2.isEmpty

def place (n : Nat) : Option Int := some n

/-- The fenced diagrams of numbered lines, where `current` is the diagram that is open. -/
def fenced (current : Option Region) : List Line → List Region × List Finding
  | [] =>
    match current with
    | none => ([], [])
    | some region =>
      (if hasText region.lines then [region] else [],
       [.error "Unterminated diagram block" "unterminated_block" (place region.start)
         (some "Close the block with ```")])
  | (n, line) :: rest =>
    if line == fenceStart then
      let more := fenced (some ⟨n, []⟩) rest
      let nested : List Finding := if current.isSome then
        [.error "Nested diagram blocks" "nested_block" (place n)
          (some "Close the previous block with ``` first")]
        else []
      (more.1, nested ++ more.2)
    else
      match current with
      | none => fenced none rest
      | some region =>
        if line == fenceEnd then
          let more := fenced none rest
          if hasText region.lines then (region :: more.1, more.2)
          else
            (more.1, .error "Empty diagram block" "empty_block" (place region.start)
              (some "Add a flowchart declaration and states") :: more.2)
        else fenced (some { region with lines := region.lines ++ [(n, line)] }) rest

/-- The diagrams of a text and what is wrong with their fences. -/
def regions (cs : List Char) : List Region × List Finding :=
  let lines : List Line := (numberedLines cs).map fun line => (line.1, trim line.2)
  if lines.any (·.2 == fenceStart) then fenced none lines
  else
    match lines.dropWhile fun line => !declares line.2 with
    | [] => ([], [])
    | first :: rest => ([⟨first.1, first :: rest⟩], [])

/-- The options that the lint looks at. -/
structure Options where
  strict : Bool := false
  naming : Bool := true
deriving DecidableEq, Repr

/-- A finding about naming: an error in strict mode and a warning otherwise. -/
def namingFinding (o : Options) (message suggestion : String) (n : Nat) : Finding :=
  ⟨message, if o.strict then .error else .warning, place n, some suggestion, "naming"⟩

/-- The part that a name plays in its line. -/
inductive NameRole where
  | source
  | target
  | node
  | styled
  | classTarget

namespace NameRole

def text : NameRole → String
  | .source => "source state"
  | .target => "target state"
  | .node => "node"
  | .styled => "styled node"
  | .classTarget => "class target node"

/-- The text at the start of a sentence. -/
def sentence : NameRole → String
  | .source => "Source state"
  | .target => "Target state"
  | .node => "Node"
  | .styled => "Styled node"
  | .classTarget => "Class target node"

end NameRole

/-- Names that code may use for something else. -/
def reservedNames : List String := ["start", "end", "initial", "final", "error", "done"]

def nameLengthLimit : Nat := 50

/-- Checks the name of a state. -/
def checkName (o : Options) (n : Nat) (role : NameRole) (cs : List Char) : List Finding :=
  let name := String.ofList cs
  if cs.isEmpty then [.error s!"Empty {role.text} name" "state_name" (place n) none]
  else if !Statement.isStateName cs then
    [.error s!"Invalid {role.text} name '{name}'" "state_name" (place n)
      (some "State names must start with a letter")]
  else
    (if o.naming && !Check.isPascalCase name then
      [namingFinding o s!"{role.sentence} '{name}' should follow PascalCase convention"
        "Use PascalCase for state names (e.g. 'MainMenu', 'EnterPin')" n]
    else []) ++
    (if reservedNames.contains (lower name) then
      [.warning s!"{role.sentence} '{name}' is a reserved keyword and may cause conflicts"
        "reserved_name" (place n) none]
    else []) ++
    (if cs.length > nameLengthLimit then
      [.warning s!"{role.sentence} '{name}' is very long ({cs.length} characters)" "long_name"
        (place n) none]
    else [])

/-- Checks the label of an arrow. -/
def checkLabel (o : Options) (n : Nat) (cs : List Char) : List Finding :=
  if cs.isEmpty then [.warning "Transition label is empty" "event_name" (place n) none]
  else
    let event := String.ofList (trim (Label.withoutReferences cs))
    if !event.isEmpty && o.naming && !Check.isUpperSnake event then
      [namingFinding o s!"Event '{event}' should follow UPPER_SNAKE_CASE convention"
        "Use UPPER_SNAKE_CASE for events (e.g. 'SUBMIT', 'PIN_ENTERED')" n]
    else []

def checkClassName (n : Nat) (cs : List Char) : List Finding :=
  if Statement.isStateName cs then []
  else
    [.error s!"Invalid class name '{String.ofList cs}'" "class_name" (place n)
      (some "Class names start with a letter and use letters, digits, '_' or '-'")]

/-- Checks a chain: its names from left to right, then its labels. -/
def checkChain (o : Options) (n : Nat) (chain : Chain) : List Finding :=
  (match chain.names with
    | [] => []
    | first :: rest => checkName o n .source first ++ rest.flatMap (checkName o n .target)) ++
  chain.labels.flatMap (checkLabel o n)

/-- Checks a line with an arrow. -/
def checkTransition (o : Options) (n : Nat) (line : List Char) : List Finding :=
  if !balanced line then
    [.error s!"Unbalanced brackets: {String.ofList line}" "unbalanced_brackets" (place n)
      (some "Close every '[', '(' and '\x7b' in node labels")]
  else
    match readChain? line with
    | none =>
      [.error s!"Invalid transition syntax: {String.ofList line}" "transition_syntax" (place n)
        (some "Use format: StateA --> StateB or StateA -->|EVENT| StateB")]
    | some chain => checkChain o n chain

/-- The name and the styles of a class definition. -/
def classDef? (line : List Char) : Option (List Char × List Char) :=
  match behind? "classDef".toList line with
  | none => none
  | some rest =>
    let body := trimStart rest
    let name := body.takeWhile (!isBlank ·)
    let tail := body.dropWhile (!isBlank ·)
    let styles := trimStart tail
    if rest.head?.any isBlank && !name.isEmpty && tail.head?.any isBlank && !styles.isEmpty then
      some (name, styles)
    else none

/-- A style is a key and a value with one colon between them. -/
def isStyle (cs : List Char) : Bool :=
  match splitWhere (· == ':') (cs.filter (· != ' ')) with
  | [key, value] => !key.isEmpty && key.all Statement.isNameChar && !value.isEmpty
  | _ => false

def checkClassDef (n : Nat) (name styles : List Char) : List Finding :=
  let parts := ((splitWhere (fun c => c == ',' || c == ';') styles).map trim).filter (!·.isEmpty)
  checkClassName n name ++
  (if parts.isEmpty || !parts.all isStyle then
    [.warning s!"Class styles may not be valid CSS: {String.ofList styles}" "class_styles" (place n)
      (some "Use 'key:value' pairs such as 'fill:#fff,stroke:#333'")]
  else [])

/-- The targets and the class of a class assignment. A class that stands alone is taken as one
without targets when at least three blanks part it from the keyword. -/
def assignment? (line : List Char) : Option (List Char × List Char) :=
  match behind? "class".toList line with
  | none => none
  | some rest =>
    let blanks := (rest.takeWhile isBlank).length
    let body := trimStart rest
    if blanks == 0 || body.isEmpty then none
    else
      match splitLastWord? body with
      | some parts => some parts
      | none => if blanks ≥ 3 then some ([], body) else none

def checkAssignment (o : Options) (n : Nat) (targets name : List Char) : List Finding :=
  (piecesWhere (fun c => c == ',' || isBlank c) targets).flatMap (checkName o n .classTarget) ++
  checkClassName n name

/-- The node of a style directive. -/
def styled? (line : List Char) : Option (List Char) :=
  let name := line.takeWhile Statement.isNameChar
  match line.dropWhile Statement.isNameChar with
  | '@' :: '{' :: inner =>
    if !name.isEmpty && inner.dropWhile (· != '}') == ['}'] then some name else none
  | _ => none

/-- Two hyphens between blanks occur in the line. -/
def hasOpenArrow : List Char → Bool
  | a :: '-' :: '-' :: b :: rest =>
    (isBlank a && isBlank b) || hasOpenArrow ('-' :: '-' :: b :: rest)
  | _ :: rest => hasOpenArrow rest
  | [] => false

/-- Checks one line of a diagram, without the semicolons behind it. -/
def checkLine (o : Options) (n : Nat) (line : List Char) : List Finding :=
  let shown := String.ofList line
  let arrow := occurs "->".toList line
  match classDef? line with
  | some (name, styles) => checkClassDef n name styles
  | none =>
  match if arrow then none else assignment? line with
  | some (targets, name) => checkAssignment o n targets name
  | none =>
  if arrow || hasOpenArrow line then checkTransition o n line
  else
  match styled? line with
  | some name => checkName o n .styled name
  | none =>
  if (afterWord? "subgraph" line).isSome || line == "end".toList then
    [.warning "Subgraph usage: subgraphs are flattened, not converted to states"
      "subgraph" (place n)
      none]
  else if Block.ignoredKeywords.any fun word => (afterWord? word line).isSome then
    [.warning s!"Unsupported statement ignored: {shown}" "unsupported" (place n) none]
  else
  match node? line with
  | some (name, form) =>
    checkName o n .node name ++
    (if balanced form then []
    else
      [.error s!"Unbalanced brackets in node label: {String.ofList form}" "unbalanced_brackets"
        (place n) none])
  | none =>
  if !balanced line then
    [.error s!"Unbalanced brackets: {shown}" "unbalanced_brackets" (place n)
      (some "Close every '[', '(' and '\x7b' in the node label")]
  else
    [.error s!"Unrecognized syntax: {shown}" "syntax" (place n)
      (some "Use 'A --> B', 'A -->|EVENT| B', 'A[Label]' or 'classDef name styles'")]

/-- Checks a line behind the declaration of its diagram. -/
def checkBodyLine (o : Options) (line : Line) : List Finding :=
  if declares line.2 then
    [.error "Multiple diagram declarations in one block" "declaration" (place line.1)
      (some "Put each diagram in its own ```mermaid block")]
  else checkLine o line.1 (trimEnd (dropEndWhile (· == ';') line.2))

/-- The lines that count: not empty and no comment. -/
def content (lines : List Line) : List Line :=
  lines.filter fun line => !line.2.isEmpty && !"%%".toList.isPrefixOf line.2

/-- Checks one diagram. -/
def checkRegion (o : Options) (region : Region) : List Finding :=
  match content region.lines with
  | [] => []
  | first :: rest =>
    (if isDeclaration first.2 then []
    else
      [.error ("Invalid flowchart declaration: expected 'flowchart TD|TB|BT|RL|LR', got: " ++
          String.ofList first.2) "declaration" (place first.1)
        (some "Use 'flowchart LR' for left-to-right or 'flowchart TD' for top-down")]) ++
    (if declares first.2 then rest else first :: rest).flatMap (checkBodyLine o)

def noContent : Finding :=
  .warning "No diagram content found" "no_content" (some 1)
    (some "Add a ```mermaid block starting with 'flowchart TD'")

/-- All findings about a text, in order. -/
def findings (o : Options) (text : String) : List Finding :=
  let found := regions text.toList
  found.2 ++ (if found.1.isEmpty then [noContent] else []) ++ found.1.flatMap (checkRegion o)

/-- Lints a text. -/
def check (o : Options) (text source : String) : Report := .ofFindings source (findings o text)

end FlowMachine.Lint

namespace FlowMachine

/-- The part of the options that the lint looks at. -/
def CheckOptions.lint (o : CheckOptions) : Lint.Options := ⟨o.strict, o.naming⟩

end FlowMachine
