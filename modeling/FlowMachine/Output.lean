import FlowMachine.Disk
import FlowMachine.Module.Check

/-!
# Writing files

A proposed text is written under its path, and missing directories are made. A directory in its
place is never replaced, an existing file only when that is allowed, and it can be kept as a copy
whose name ends in `.bak`. What the disk refuses is reported and not raised. A file is opened, which
empties it, before its text is turned into bytes: a text that the encoding has no bytes for stops
the writing there.
-/
namespace FlowMachine

/-- What became of a proposed file. -/
inductive WriteOutcome where
  | written (size : Nat) (backup : Option Path)
  /-- There was a file already, and it was kept. -/
  | kept
  | blocked
  | refused (fault : Fault)
deriving DecidableEq, Repr

structure WriteResult where
  path : Path
  outcome : WriteOutcome
deriving DecidableEq, Repr

namespace WriteResult

/-- Nothing stood in the way: a file that was kept counts too. -/
def success (r : WriteResult) : Bool :=
  match r.outcome with
  | .written _ _ => true
  | .kept => true
  | _ => false

def written (r : WriteResult) : Bool :=
  match r.outcome with
  | .written _ _ => true
  | _ => false

def skipped (r : WriteResult) : Bool := r.outcome == .kept

/-- Where the file that was replaced is kept. -/
def backup? (r : WriteResult) : Option Path :=
  match r.outcome with
  | .written _ backup => backup
  | _ => none

def message (r : WriteResult) : String :=
  match r.outcome with
  | .written size _ => s!"Wrote {size} bytes"
  | .kept => "File exists and overwrite is disabled"
  | .blocked => s!"Path is a directory: {r.path.toText}"
  | .refused fault => fault.message

end WriteResult

/-- The ending of a kept copy. -/
def backupSuffix : String := ".bak"

/-- Where the copy of a file is kept. -/
def backupPath (p : Path) : Path := p.withName (p.name ++ backupSuffix)

/-- A text, which may hold lone surrogates, and the path that it is to be written under. -/
structure TextFile where
  path : String
  content : Text.Torn
deriving DecidableEq, Repr

/-- The bytes that the text takes in UTF-8. -/
def TextFile.size (f : TextFile) : Except Text.EncodeFlaw Nat :=
  f.content.encode.map ByteArray.size

/-- Writes texts in an encoding. -/
structure FileWriter where
  encode : Text.Torn → Except Text.EncodeFlaw ByteArray := Text.Torn.encode

namespace FileWriter

/-- Keeps a copy of the file that is there. -/
def keepCopy (p : Path) (there backup : Bool) : Act (Option Path) := do
  if there && backup then
    Act.change (·.copy p (backupPath p))
    return some (backupPath p)
  else return none

/-- What an encoding gives, or the fault that it has nothing to give. -/
def encoded (result : Except Text.EncodeFlaw α) : Act α :=
  match result with
  | .ok a => return a
  | .error flaw => throw (.unencodable flaw)

/-- Opens the file at a path, which empties it, and writes the text to it. -/
def store (w : FileWriter) (f : TextFile) (p : Path) : Act Unit := do
  Act.change (·.write p .empty)
  let bytes ← encoded (w.encode f.content)
  Act.change (·.write p bytes)

/-- Puts the text in place, where no directory is. -/
def place (w : FileWriter) (f : TextFile) (p : Path) (there overwrite backup : Bool) :
    Act WriteOutcome := do
  if there && !overwrite then return .kept
  else
    let kept ← keepCopy p there backup
    Act.ensureDirectory p.parent
    w.store f p
    return .written (← encoded f.size) kept

/-- Writes the text, or leaves what is there. -/
def settle (w : FileWriter) (f : TextFile) (p : Path) (overwrite backup : Bool) :
    Act WriteOutcome := do
  match ← Act.look (·.peek p) with
  | some .directory => return .blocked
  | there => w.place f p there.isSome overwrite backup

/-- Writes the text and reports what became of it. -/
def write (w : FileWriter) (f : TextFile) (overwrite backup : Bool) : Act WriteResult := do
  let p := Path.ofText f.path
  match ← Act.attempt (w.settle f p overwrite backup) with
  | .ok outcome => return ⟨p, outcome⟩
  | .error fault => return ⟨p, .refused fault⟩

end FileWriter

namespace OutputFile

/-- The text of a file of a build. -/
def textFile (f : OutputFile) : TextFile := ⟨f.path, ⟨f.content, []⟩⟩

/-- Writes the file in UTF-8 and reports what became of it. -/
def write (f : OutputFile) (overwrite backup : Bool) : Act WriteResult :=
  ({} : FileWriter).write f.textFile overwrite backup

end OutputFile

end FlowMachine
