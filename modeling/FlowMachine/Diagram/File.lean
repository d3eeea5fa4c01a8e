import FlowMachine.Disk
import FlowMachine.Settings

/-!
# Reading source files
-/
namespace FlowMachine

/-- Reads the source at a path, which is named for its file. -/
def ReaderSettings.sourceAt (s : ReaderSettings) (d : Disk) (path : String) : Except Fault Source :=
  let p := Path.ofText path
  match d.text p with
  | .ok text => s.readSource text (some p.stem) (some path)
  | .error (.file .missing _) => .error (.unreadable path "file not found")
  | .error (.file e shown) => .error (.unreadable path (Fault.file e shown).message)
  | .error (.undecodable flaw) => .error (.unreadable path flaw.message)
  | .error fault => .error fault

end FlowMachine
