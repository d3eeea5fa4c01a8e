import FlowMachine.Command.Codegen
import FlowMachine.Command.Validate
import Std.Time.DateTime.Timestamp

/-!
# The programs

A command works on an image of the working directory and of the absolute paths among its arguments.
What it changed in the image is written back. The name under which the program is called chooses the
command.
-/
namespace FlowMachine.Program

/-- The time of a file in milliseconds. -/
def milliseconds (t : IO.FS.SystemTime) : Int := t.sec * 1000 + t.nsec.toNat / 1000000

/-- The entries below a directory. What cannot be looked at is left out. -/
partial def entriesBelow (place : Location) (children : Array IO.FS.DirEntry) :
    IO (List (Location × Entry)) := do
  let mut entries : List (Location × Entry) := []
  for child in children do
    let place := place ++ [child.fileName]
    try
      let data ← child.path.metadata
      if data.type == .dir then
        entries := (place, .directory) :: (← entriesBelow place (← child.path.readDir)) ++ entries
      else if data.type == .file then
        let content ← IO.FS.readBinFile child.path
        entries := (place, .file content (milliseconds data.modified)) :: entries
    catch _ => pure ()
  return entries

/-- The directories that lead to a place. -/
def leading (place : Location) : List (Location × Entry) :=
  (List.range place.length).map fun n => (place.take (n + 1), .directory)

/-- The image of the disk on which a command works. -/
def image : IO Disk := do
  let directory ← IO.currentDir
  let home := (Path.ofText directory.toString).parts
  let now ← Std.Time.Timestamp.now
  let entries ← entriesBelow home (← directory.readDir)
  return { entries := leading home ++ entries, home, clock := now.toMillisecondsSinceUnixEpoch.val }

/-- The directories of the absolute paths among arguments, up to the first pattern. -/
def absoluteDirectories (args : List String) : List Location :=
  args.filterMap fun arg =>
    let p := Path.ofText arg
    if p.root == 0 then none
    else some (p.parts.takeWhile fun part => !Wildcard.isPattern part.toList).dropLast

/-- Adds a directory outside of the working directory to an image. -/
def withDirectory (d : Disk) (place : Location) : IO Disk := do
  try
    let children ← (← IO.FS.realPath ("/" ++ "/".intercalate place)).readDir
    let entries ← entriesBelow place children
    return { d with entries := (leading place ++ entries ++ d.entries).eraseDupsBy (·.1 == ·.1) }
  catch _ => return d

/-- Writes what differs between two images, directories before what is in them. -/
def writeBack (old new : Disk) : IO Unit := do
  let changed := new.entries.filter fun entry => old.get? entry.1 != some entry.2
  for (place, entry) in changed.mergeSort fun a b => a.1.length ≤ b.1.length do
    let path := "/" ++ "/".intercalate place
    match entry with
    | .directory => IO.FS.createDirAll path
    | .file content _ => IO.FS.writeBinFile path content

/-- Runs the command that a program name stands for. -/
def command (name : String) (args : List String) : StateM Disk (Except Fault Command.Exit) := do
  if Text.within "validate" name then return Command.Validate.run (← get) args
  else Command.Codegen.run args

def run (name : String) (args : List String) : IO UInt32 := do
  let mut disk ← image
  for place in absoluteDirectories args do
    disk ← withDirectory disk place
  let (result, changed) := (command name args).run disk
  writeBack disk changed
  match result with
  | .ok exit =>
    (← IO.getStdout).putStr exit.out
    (← IO.getStderr).putStr exit.err
    return exit.code.toUInt32
  | .error fault =>
    (← IO.getStderr).putStr (fault.message ++ "\n")
    return 1

end FlowMachine.Program

def main (args : List String) : IO UInt32 := do
  let name := ((← IO.appPath).fileName).getD ""
  FlowMachine.Program.run name args
