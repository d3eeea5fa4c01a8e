import FlowMachine.Diagram.Statement.Reader
import FlowMachine.Finding
import FlowMachine.Text.Lines

/-!
# Blocks of a source

A source holds diagrams between other text. A block starts at a line that declares a flowchart and
runs to the next fence, the next such line or the end of the source.
-/
namespace FlowMachine

open FlowMachine.Text

/-- One diagram of a source: the number of its first line, the keyword and direction given there,
and the numbered lines behind it. -/
structure Block where
  startLine : Nat
  keyword : String
  direction : String
  lines : List (Nat × List Char) := []
deriving DecidableEq, Repr

/-- What a line of a source is to the blocks. -/
inductive LineRole where
  | fence
  | start (keyword direction : String)
  | body
deriving DecidableEq, Repr

namespace Block

/-- The words that declare a flowchart. -/
def keywords : List String := ["flowchart", "graph"]

/-- The direction behind a declaring keyword, when nothing but a semicolon follows it. -/
def directionOf? (cs : List Char) : Option String :=
  let tail := trimStart cs
  let rest := trimStart (tail.dropWhile Char.isAlpha)
  let behind := match rest with
    | ';' :: after => trimStart after
    | after => after
  if behind.isEmpty then some (String.ofList (tail.takeWhile Char.isAlpha)) else none

/-- Keyword and direction of a trimmed line that declares a flowchart. -/
def declaration? (line : List Char) : Option (String × String) :=
  keywords.findSome? fun keyword =>
    (afterWord? keyword line).bind fun rest =>
      (directionOf? rest).map fun direction => (keyword, direction)

/-- The mark that opens and closes code in a source. -/
def fenceMark : List Char := "```".toList

def roleOf (raw : List Char) : LineRole :=
  let line := trim raw
  if fenceMark.isPrefixOf line then .fence
  else
    match declaration? line with
    | some (keyword, direction) => .start keyword direction
    | none => .body

/-- Appends a line to a block. -/
def push (b : Block) (n : Nat) (raw : List Char) : Block :=
  { b with lines := b.lines ++ [(n, raw)] }

/-- The blocks of numbered lines, where `current` is the block that is open. -/
def collect (current : Option Block) : List (Nat × List Char) → List Block
  | [] => current.toList
  | (n, raw) :: rest =>
    match roleOf raw with
    | .fence => current.toList ++ collect none rest
    | .start keyword direction => current.toList ++ collect (some ⟨n, keyword, direction, []⟩) rest
    | .body => collect (current.map (·.push n raw)) rest

/-- The blocks of a source. -/
def ofText (cs : List Char) : List Block := collect none (numberedLines cs)

/-- A comment starts with `%%`, `//` or `#`. -/
def isComment (line : List Char) : Bool :=
  ["%%", "//", "#"].any fun mark => mark.toList.isPrefixOf line

/-- Statements that are known and passed over. -/
def ignoredKeywords : List String := ["style", "linkStyle", "click", "direction"]

/-- What one line contributes, and the depth of open subgraphs behind it. -/
structure LineReading where
  depth : Nat
  statements : List Statement := []
  findings : List Finding := []

/-- Reads one line of a block inside `depth` open subgraphs. -/
def readLine (depth n : Nat) (raw : List Char) : LineReading :=
  let line := trim raw
  let place : Option Int := some n
  if line.isEmpty || isComment line then { depth }
  else if (afterWord? "subgraph" line).isSome then
    { depth := depth + 1
      findings :=
      [.warning "Subgraphs are flattened into the parent machine" "subgraph" place none] }
  else if line == "end".toList && depth != 0 then { depth := depth - 1 }
  else if ignoredKeywords.any fun word => (afterWord? word line).isSome then
    { depth
      findings := [.warning s!"Unsupported statement ignored: {String.ofList line}" "syntax" place
        none] }
  else
    match Statement.read place line with
    | .ok statements => { depth, statements }
    | .error e =>
      { depth, findings := [⟨e.message, e.severity, place, e.suggestion, "syntax"⟩] }

/-- Reads numbered lines inside `depth` open subgraphs. -/
def readLines (depth : Nat) : List (Nat × List Char) → List Statement × List Finding
  | [] => ([], [])
  | (n, raw) :: rest =>
    let here := readLine depth n raw
    let more := readLines here.depth rest
    (here.statements ++ more.1, here.findings ++ more.2)

/-- The statements of a block and what was found while reading them. -/
def read (b : Block) : List Statement × List Finding := readLines 0 b.lines

end Block

end FlowMachine
