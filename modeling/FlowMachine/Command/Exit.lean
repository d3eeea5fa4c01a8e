import FlowMachine.Command.Arguments

/-!
# How a command ends
-/
namespace FlowMachine.Command

/-- The exit code of a command with what it wrote to either output. -/
structure Exit where
  code : Nat := 0
  out : String := ""
  err : String := ""
deriving DecidableEq, Repr

/-- Lines of text, each with a line feed behind it. -/
def ofLines (lines : List String) : String := String.join (lines.map (· ++ "\n"))

/-- Arguments that are not taken end a command: with its help, or with its usage and what is
wrong. -/
def Stop.exit : Stop → Exit
  | .help g => { out := ofLines g.help }
  | .mistake g message =>
    { code := 2, err := ofLines (g.usage ++ [s!"{g.program}: error: {message}"]) }

end FlowMachine.Command
