import FlowMachine.Disk
import FlowMachine.Sources.Wildcard

/-!
# Sources of a build

A source is given by the path of a file, by a directory that is searched for diagrams, or by a
pattern. In a pattern two asterisks as a whole name stand for any directories and files below. A
name that starts with a dot fits only a pattern that does, while the search of a directory finds it.
-/
namespace FlowMachine.Sources

/-- The endings of files with diagrams. -/
def suffixes : List String := [".md", ".mmd", ".mermaid"]

/-- Cuts a pattern before its last name. Slashes at the end of the front are dropped, unless there
is nothing else. -/
def splitLast (cs : List Char) : List Char × List Char :=
  let last := Text.takeEndWhile (· != '/') cs
  let front := cs.take (cs.length - last.length)
  (if front.all (· == '/') then front else Text.dropEndWhile (· == '/') front, last)

/-- A name below a directory, as written. -/
def under (front name : List Char) : List Char :=
  if front.isEmpty || front.getLast? == some '/' then front ++ name else front ++ '/' :: name

def isHidden (name : String) : Bool := name.toList.head? == some '.'

/-- The directory that a text names; no text at all names the working directory. -/
def place? (d : Disk) (front : List Char) : Except Fault (Option Location) :=
  match d.find (.ofText (String.ofList front)) with
  | .ok place => .ok (if (d.get? place).any Entry.isDirectory then some place else none)
  | .error (.file _ _) => .ok none
  | .error fault => .error fault

/-- The entry is wanted when only directories are. -/
def wanted (dirsOnly : Bool) (e : Option Entry) : Bool := !dirsOnly || e.any Entry.isDirectory

/-- All that is below a directory without passing a hidden name. The directory itself comes
first. -/
def allBelow (d : Disk) (dirsOnly : Bool) (place : Location) : List (List Char) :=
  [] :: ((d.below place).filter fun entry =>
    entry.1.all (!isHidden ·) && wanted dirsOnly entry.2).map fun entry =>
      ("/".intercalate entry.1).toList

/-- The names in a directory that fit a pattern. -/
def namesIn (d : Disk) (dirsOnly : Bool) (place : Location) (pattern : List Char) :
    List (List Char) :=
  let marks := Wildcard.read pattern
  let hidden := pattern.head? == some '.'
  ((d.names place).filter fun name =>
    wanted dirsOnly (d.get? (place ++ [name])) && (hidden || !isHidden name) &&
      Wildcard.fits marks name.toList).map String.toList

/-- What a last name stands for in a directory. No name and a single dot stand for the directory
itself. -/
def inDirectory (d : Disk) (dirsOnly : Bool) (front last : List Char) :
    Except Fault (List (List Char)) := do
  if Wildcard.isPattern last then
    match ← place? d front with
    | none => return []
    | some place =>
      if last == ['*', '*'] then return allBelow d dirsOnly place
      else return namesIn d dirsOnly place last
  else
    let there : Bool := match d.status (.ofText (String.ofList (under front last))) with
      | .ok e => !(last.isEmpty || last == ['.']) || e.isDirectory
      | .error _ => false
    return if there then [last] else []

/-- The paths that fit a pattern, as written. The pattern is followed for as many names as `fuel`
allows. -/
def expand (d : Disk) : Nat → Bool → List Char → Except Fault (List (List Char))
  | 0, _, _ => .ok []
  | fuel + 1, dirsOnly, pattern => do
    let cut := splitLast pattern
    let fronts ← if Wildcard.isPattern cut.1 then expand d fuel true cut.1 else pure [cut.1]
    let found ← fronts.mapM fun front => do
      return (← inDirectory d dirsOnly front cut.2).map (under front)
    return found.flatten

def ordered (paths : List String) : List String := paths.mergeSort fun a b => decide (a ≤ b)

/-- The files that fit a pattern, in order. -/
def matching (d : Disk) (pattern : String) : Except Fault (List String) := do
  let cs := pattern.toList
  let found ← expand d (cs.length + 1) false cs
  let files ← (found.map String.ofList).filterM fun path => d.isFile (.ofText path)
  return ordered files

/-- The files with diagrams below a directory, in order. -/
def diagramsBelow (d : Disk) (directory : Path) : Except Fault (List String) := do
  let place ← d.find directory
  let paths := (d.below place).filterMap fun entry =>
    match entry.2 with
    | .directory => none
    | .file _ _ =>
      let path := directory.join ⟨0, entry.1⟩
      if suffixes.contains path.suffix then some path.toText else none
  return ordered paths

/-- The files that a source stands for. The path of a file stands for itself, there or not. -/
def filesOf (d : Disk) (source : String) : Except Fault (List String) := do
  if Wildcard.isPattern source.toList then matching d source
  else if ← d.isDirectory (.ofText source) then diagramsBelow d (.ofText source)
  else return [source]

/-- The files of all sources, each once and where it is met first. -/
def resolve (d : Disk) (sources : List String) : Except Fault (List String) := do
  return (← sources.mapM (filesOf d)).flatten.eraseDups

/-- The sources that a datum lists: the items of a list, the characters of a text, or the keys of a
mapping. -/
def listed : Datum → Except Fault (List String)
  | .list items => .ok (items.map Datum.shown)
  | .text s => .ok (s.toList.map fun c => String.ofList [c])
  | .map entries => .ok (entries.map fun entry => entry.1.toDatum.shown)
  | d => .error (.kind (.notIterable d.familyName))

end FlowMachine.Sources
