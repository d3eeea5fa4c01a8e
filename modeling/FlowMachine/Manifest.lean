import FlowMachine.Datum.Json
import FlowMachine.Digest
import FlowMachine.Disk
import FlowMachine.Number.Numeral

/-!
# Manifests

A manifest remembers the files of the last successful build by path: their digests, times and sizes.
It is kept as JSON. A manifest that is missing or damaged counts as an empty one.
-/
namespace FlowMachine

/-- What is remembered of a file. -/
structure Fingerprint where
  path : String
  digest : String
  modified : Int
  size : Int
deriving DecidableEq, Repr

namespace Fingerprint

def toDatum (r : Fingerprint) : Datum :=
  .ofFields [("path", .text r.path), ("hash", .text r.digest), ("mtime", .int r.modified),
    ("size", .int r.size)]

/-- The record of a file with its bytes and its time. -/
def ofFile (path : String) (content : ByteArray) (modified : Int) : Fingerprint :=
  ⟨path, Digest.ofBytes content, modified, content.size⟩

end Fingerprint

/-- Records by path, in the order in which the paths came. -/
abbrev Records := List (String × Fingerprint)

namespace Records

/-- The record of a path. -/
def get? (rs : Records) (path : String) : Option Fingerprint := rs.lookup path

/-- Sets the record of a path. A path that is there keeps its place. -/
def insert (rs : Records) (path : String) (r : Fingerprint) : Records :=
  if rs.any (·.1 == path) then rs.map fun entry => if entry.1 == path then (path, r) else entry
  else rs ++ [(path, r)]

def toDatum (rs : Records) : Datum := .ofFields (rs.map fun entry => (entry.1, entry.2.toDatum))

end Records

/-- The version that is written. -/
def formatVersion : String := "1.0.0"

structure Manifest where
  version : String := formatVersion
  /-- The time of the last build in milliseconds. -/
  lastUpdate : Int := 0
  sources : Records := []
  generated : Records := []
deriving DecidableEq, Repr

namespace Manifest

def toDatum (m : Manifest) : Datum :=
  .ofFields [("version", .text m.version), ("lastUpdate", .int m.lastUpdate),
    ("sourceFiles", m.sources.toDatum), ("generatedFiles", m.generated.toDatum)]

/-- The text in which a manifest is kept. -/
def render (m : Manifest) : String := Json.pretty m.toDatum

/-- The characters that a manifest takes when it is written in one line. -/
def size (m : Manifest) : Nat := (Json.compact m.toDatum).length

end Manifest

/-- Why data make no manifest. -/
inductive Damage where
  | malformed
  /-- A number is infinite where an integer is needed. -/
  | infinite
deriving DecidableEq, Repr

/-- The integer that a datum stands for: fractions are cut off, and texts are read as numerals. -/
def Datum.integer : Datum → Except Damage Int
  | .bool b => .ok (if b then 1 else 0)
  | .int n => .ok n
  | .real (.infinity _) => .error .infinite
  | .real x => match x.truncate? with
    | some n => .ok n
    | none => .error .malformed
  | .text s => match Numeral.integer? s.toList with
    | some n => .ok n
    | none => .error .malformed
  | _ => .error .malformed

namespace Fingerprint

/-- Reads a record. What is not given is empty or zero. -/
def ofDatum : Datum → Except Damage Fingerprint
  | .map entries => do
    let get (name : String) (default : Datum) := (Datum.lookup entries name).getD default
    let modified ← (get "mtime" (.int 0)).integer
    let size ← (get "size" (.int 0)).integer
    return ⟨(get "path" (.text "")).shown, (get "hash" (.text "")).shown, modified, size⟩
  | _ => .error .malformed

end Fingerprint

namespace Manifest

/-- Reads the records of a mapping. -/
def recordsOf : List (Key × Datum) → Except Damage Records
  | [] => .ok []
  | (key, d) :: rest => do
    let r ← Fingerprint.ofDatum d
    return (key.toDatum.shown, r) :: (← recordsOf rest)

/-- Reads the records of a section. A section that counts as false has none. -/
def sectionOf : Option Datum → Except Damage Records
  | none => .ok []
  | some (.map entries) => recordsOf entries
  | some d => if d.truthy then .error .malformed else .ok []

/-- Reads a manifest from data. -/
def ofDatum : Datum → Except Damage Manifest
  | .map entries => do
    let version := ((Datum.lookup entries "version").getD (.text formatVersion)).shown
    let lastUpdate ← ((Datum.lookup entries "lastUpdate").getD (.int 0)).integer
    let sources ← sectionOf (Datum.lookup entries "sourceFiles")
    let generated ← sectionOf (Datum.lookup entries "generatedFiles")
    return { version, lastUpdate, sources, generated }
  | _ => .error .malformed

/-- Reads a manifest from a text. -/
def read (s : String) : Except Damage Manifest :=
  match Json.read? s.toList with
  | some d => ofDatum d
  | none => .error .malformed

/-- Loads the manifest at a path. One that is missing, unreadable or damaged counts as empty; only
an infinite number is a fault. -/
def load (d : Disk) (p : Path) : Except Fault Manifest := do
  if ← d.holds p then
    match d.text p with
    | .error _ => return {}
    | .ok s =>
      match read s with
      | .ok m => return m
      | .error .malformed => return {}
      | .error .infinite => throw .infiniteNumber
  else return {}

end Manifest

end FlowMachine
