import FlowMachine.Manifest

/-!
# Tracking changes

A tracker holds the manifest of a path in memory. It compares files with the records, says whether a
build is up to date, and records a new build.
-/
namespace FlowMachine

/-- How paths differ from the records. -/
structure Changes where
  changed : List String := []
  added : List String := []
  modified : List String := []
  deleted : List String := []
  unreadable : List String := []
deriving DecidableEq, Repr

namespace Changes

def any (c : Changes) : Bool := !c.changed.isEmpty || !c.deleted.isEmpty

end Changes

/-- How one path compares with the records. -/
inductive Standing where
  | unreadable
  | added
  | modified
  | unchanged
deriving DecidableEq, Repr

/-- A manifest in memory and where it is kept. -/
structure Tracker where
  path : Path
  manifest : Manifest := {}
deriving DecidableEq, Repr

namespace Tracker

/-- Opens the manifest at a path. -/
def load (d : Disk) (path : Path) : Except Fault Tracker := return ⟨path, ← Manifest.load d path⟩

/-- Writes the manifest to its path. What the disk refuses is passed over. -/
def save (t : Tracker) : Act Unit := do
  let _ ← Act.attempt do
    Act.ensureDirectory t.path.parent
    Act.change (·.write t.path t.manifest.render.toUTF8)
  return ()

/-- Compares a file with its record: other bytes or a later time make it modified. -/
def compare (record : Option Fingerprint) (content : ByteArray) (modified : Int) : Standing :=
  match record with
  | none => .added
  | some r =>
    if Digest.ofBytes content != r.digest || r.modified < modified then .modified else .unchanged

/-- The standing of a path. -/
def standing (d : Disk) (m : Manifest) (path : String) : Except Fault Standing := do
  match ← d.peek (.ofText path) with
  | some (.file content modified) => return compare (m.sources.get? path) content modified
  | _ => return .unreadable

/-- The paths with a standing. -/
def pathsWith (s : Standing) (standings : List (String × Standing)) : List String :=
  (standings.filter (·.2 == s)).map Prod.fst

/-- Compares paths with the records. -/
def changes (d : Disk) (m : Manifest) (paths : List String) : Except Fault Changes := do
  let standings ← paths.mapM fun path => return (path, ← standing d m path)
  return {
    changed := (standings.filter (·.2 != .unchanged)).map Prod.fst
    added := pathsWith .added standings
    modified := pathsWith .modified standings
    deleted := (m.sources.map Prod.fst).filter (!paths.contains ·)
    unreadable := pathsWith .unreadable standings }

/-- Every path is a file that is not later than a time. -/
def noLater (d : Disk) (time : Int) : List String → Except Fault Bool
  | [] => .ok true
  | path :: rest => do
    match ← d.peek (.ofText path) with
    | some (.file _ modified) => if time < modified then return false else noLater d time rest
    | _ => return false

/-- Every path leads to something. -/
def allThere (d : Disk) : List String → Except Fault Bool
  | [] => .ok true
  | path :: rest => do
    if ← d.holds (.ofText path) then allThere d rest else return false

/-- No path was written after the last build, and all that it made is there. -/
def upToDate (d : Disk) (m : Manifest) (paths : List String) : Except Fault Bool := do
  if ← noLater d m.lastUpdate paths then allThere d (m.generated.map Prod.fst) else return false

/-- Records the paths that are files. -/
def record (d : Disk) (rs : Records) : List String → Except Fault Records
  | [] => .ok rs
  | path :: rest => do
    match ← d.peek (.ofText path) with
    | some (.file content modified) =>
      record d (rs.insert path (.ofFile path content modified)) rest
    | _ => record d rs rest

/-- Records paths one by one. What was recorded before a fault stays. -/
def recordEach (d : Disk) (rs : Records) : List String → Records × Except Fault Unit
  | [] => (rs, .ok ())
  | path :: rest =>
    match record d rs [path] with
    | .ok rs => recordEach d rs rest
    | .error fault => (rs, .error fault)

/-- The manifest with new records of sources and files made. A fault in the sources changes nothing,
and a fault in the files made keeps what was recorded before it. -/
def recorded (d : Disk) (m : Manifest) (sources generated : List String) :
    Manifest × Except Fault Unit :=
  match record d [] sources with
  | .error fault => (m, .error fault)
  | .ok rs =>
    let made := recordEach d m.generated generated
    let m := { m with sources := rs, generated := made.1 }
    match made.2 with
    | .error fault => (m, .error fault)
    | .ok () => ({ m with lastUpdate := d.clock }, .ok ())

/-- Records a build and saves the manifest. -/
def commit (t : Tracker) (sources generated : List String) :
    StateM Disk (Tracker × Except Fault Unit) := do
  let next := recorded (← get) t.manifest sources generated
  let t := { t with manifest := next.1 }
  match next.2 with
  | .error fault => return (t, .error fault)
  | .ok () => return (t, ← t.save.run)

/-- Forgets all records and saves the empty manifest. -/
def reset (t : Tracker) : StateM Disk (Tracker × Except Fault Unit) := do
  let t := { t with manifest := {} }
  return (t, ← t.save.run)

end Tracker

end FlowMachine
