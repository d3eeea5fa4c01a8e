import FlowMachine.Datum.Yaml
import FlowMachine.Disk
import FlowMachine.Settings

/-!
# Settings files

The settings of a build are kept in a YAML file. A file without content gives the settings that
stand when nothing is set.
-/
namespace FlowMachine.Settings

/-- The text asks for a directory by what it ends in. -/
def namesDirectory (file : String) : Bool :=
  let cs := file.toList
  cs.getLast? == some '/' || ['/', '.'].reverse.isPrefixOf cs.reverse

/-- A settings file is read in chunks of this many bytes. -/
def chunkSize : Nat := 8192

/-- The text of the file that is named exactly so. -/
def fileText (d : Disk) (file : String) : Except Fault String := do
  if file.isEmpty then throw (.file .missing file)
  let p := Path.ofText file
  if namesDirectory file && (← d.isFile p) then throw (.file .notDirectory file)
  match d.text p with
  | .error (.undecodable flaw) => throw (.undecodable (flaw.inChunks chunkSize (← d.bytes p)))
  | result => result

/-- Loads the data of a file. What counts as false stands for an empty mapping. -/
def loadData (d : Disk) (file : String) : Except Fault Datum :=
  match fileText d file with
  | .error (.file .missing _) => .error (.settings (.noFile file))
  | .error (.file e _) => .error (.file e file)
  | .error fault => .error fault
  | .ok s =>
    match Yaml.read s.toList with
    | .error .malformed => .error (.settings (.badYaml file))
    | .error (.value cause) => .error (.scalar cause)
    | .ok data => .ok (if data.truthy then data else .map [])

/-- The sources can be counted. -/
def countable : Datum → Bool
  | .list _ => true
  | .map _ => true
  | .text _ => true
  | _ => false

/-- Loads the settings of a build. Their sources have to be something that can be counted. -/
def load (d : Disk) (file : String) : Except Fault BuildSettings := do
  let s ← BuildSettings.read (← loadData d file)
  if countable s.sources then return s else throw (.kind (.noLength s.sources.familyName))

end FlowMachine.Settings
