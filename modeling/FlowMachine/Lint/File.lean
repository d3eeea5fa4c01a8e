import FlowMachine.Disk
import FlowMachine.Lint

/-!
# Linting files
-/
namespace FlowMachine.Lint

/-- A report on a file that cannot be read. -/
def unread (path message category : String) : Report :=
  .ofFindings path [.error message category (some 0) none]

/-- Lints the file at a path. A file that cannot be read has one error. -/
def checkFile (o : Options) (d : Disk) (path : String) : Except Fault Report :=
  match d.text (.ofText path) with
  | .ok text => .ok (check o text path)
  | .error (.file .missing _) => .ok (unread path s!"File not found: {path}" "file_not_found")
  | .error (.file e shown) =>
    .ok (unread path ("Failed to read file: " ++ (Fault.file e shown).message) "file_read_error")
  | .error (.undecodable flaw) =>
    .ok (unread path ("Failed to read file: " ++ flaw.message) "file_read_error")
  | .error fault => .error fault

end FlowMachine.Lint
