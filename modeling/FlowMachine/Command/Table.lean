import FlowMachine.Text.Blank
import FlowMachine.Text.Control
import FlowMachine.Text.Lines

/-!
# Tables

A table is drawn as a grid with one space on either side of every cell. Cells are trimmed; numbers
stand at the right of their column, and all else at the left. A column is at least two wider than
its title. A cell with line breaks takes several lines, and control sequences take up no room.
-/
namespace FlowMachine.Command.Table

/-- The side of its column at which a cell stands. -/
inductive Align where
  | left
  | right
deriving DecidableEq, Repr

structure Column where
  title : String := ""
  align : Align := .left
  cells : List String
deriving DecidableEq, Repr

/-- What is to be heeded in a table. -/
structure Mode where
  /-- Some cell has line breaks. -/
  broken : Bool := false
  /-- Some cell has control sequences. -/
  hidden : Bool := false
deriving DecidableEq, Repr

/-- A line feed or a carriage return starts a new line of a cell. -/
def isLineEnd (c : Char) : Bool := c == '\n' || c == '\r'

namespace Mode

/-- The mode of a table with these texts. -/
def ofTexts (texts : List (List Char)) : Mode where
  broken := texts.any (·.any isLineEnd)
  hidden := Text.hasControl (Text.joinChars ['\t'] texts)

/-- The room that a line takes up. -/
def lineWidth (m : Mode) (cs : List Char) : Nat :=
  if m.hidden then (Text.visible cs).length else cs.length

/-- The lines whose widths count. -/
def parts (m : Mode) (cs : List Char) : List (List Char) :=
  if m.broken then Text.splitWhere isLineEnd cs else [cs]

/-- The room that the widest line of a cell takes up. -/
def width (m : Mode) (cs : List Char) : Nat := ((m.parts cs).map m.lineWidth).foldl max 0

end Mode

/-- A text at its side of a width. -/
def pad (align : Align) (width : Nat) (cs : List Char) : List Char :=
  let fill := List.replicate (width - cs.length) ' '
  match align with
  | .left => cs ++ fill
  | .right => fill ++ cs

/-- A cell with all its lines at their side of a width. What takes up no room is added to the width
of the line at the same place among the lines that count. -/
def padCell (m : Mode) (align : Align) (width : Nat) (cs : List Char) : List Char :=
  let widths := (m.parts cs).map fun part => width + (part.length - m.lineWidth part)
  if !m.broken then pad align (widths.headD width) cs
  else if m.hidden then
    Text.joinChars ['\n'] (List.zipWith (fun line w => pad align w line) (Text.lines cs) widths)
  else Text.joinChars ['\n'] ((Text.lines cs).map (pad align width))

/-- How much wider a column is than its title. -/
def margin : Nat := 2

/-- A column that is drawn: its width, its title and its cells, all of them padded. -/
structure Drawn where
  width : Nat
  title : List Char
  cells : List (List Char)

/-- Draws a column; its title counts only in a table with titles. -/
def Column.draw (m : Mode) (titled : Bool) (c : Column) : Drawn :=
  let title := c.title.toList
  let least := if titled then m.width title + margin else 0
  let cells := c.cells.map fun s => Text.trim s.toList
  let widest := (cells.map m.width).foldl max least
  let cells := cells.map (padCell m c.align widest)
  let width := (cells.map m.width).foldl max least
  ⟨width, pad c.align width title, cells⟩

/-- A line between rows. -/
def rule (mark : Char) (widths : List Nat) : String :=
  "+" ++ "+".intercalate (widths.map fun w => String.ofList (List.replicate (w + 2) mark)) ++ "+"

/-- One line of a row. -/
def rowLine (cells : List (List Char)) : String :=
  String.ofList ("| ".toList ++ Text.joinChars " | ".toList cells ++ " |".toList)

/-- The lines of a row. A cell with fewer lines than another is filled up with blank ones. -/
def row (m : Mode) (widths : List Nat) (cells : List (List Char)) : List String :=
  if !m.broken then [rowLine cells]
  else
    let parts := cells.map Text.lines
    let height := (parts.map List.length).foldl max 0
    (List.range height).map fun i =>
      rowLine (List.zipWith (fun lines w => lines.getD i (List.replicate w ' ')) parts widths)

/-- The rows of a table from its columns. -/
def rows (columns : List (List (List Char))) : List (List (List Char)) :=
  let height := (columns.map List.length).foldl max 0
  (List.range height).map fun i => columns.map fun cells => cells.getD i []

/-- The lines of a table, with its titles or without. -/
def lines (titled : Bool) (columns : List Column) : List String :=
  let titles := if titled then columns.map (·.title.toList) else []
  let texts := rows (columns.map fun c => c.cells.map String.toList)
  let m := Mode.ofTexts (titles ++ texts.flatten)
  let drawn := columns.map (Column.draw m titled)
  let widths := drawn.map Drawn.width
  let head := if titled then row m widths (drawn.map Drawn.title) ++ [rule '=' widths] else []
  let body := (rows (drawn.map Drawn.cells)).map (row m widths)
  rule '-' widths :: head ++ (body.intersperse [rule '-' widths]).flatten ++ [rule '-' widths]

end FlowMachine.Command.Table
