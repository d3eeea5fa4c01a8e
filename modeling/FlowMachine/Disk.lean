import FlowMachine.Fault
import FlowMachine.Path
import FlowMachine.Text.Lines

/-!
# The disk

Directories and files under one root, with a working directory and a clock. A path is followed name
by name: what stands in front of a name has to be a directory, double dots lead back to the parent,
and a name takes at most 255 bytes.
-/
namespace FlowMachine

/-- A place on the disk: the names from the root down. -/
abbrev Location := List String

inductive Entry where
  | directory
  /-- A file with its bytes and the time, in milliseconds, at which they were written. -/
  | file (content : ByteArray) (modified : Int)
deriving BEq

def Entry.isDirectory : Entry → Bool
  | .directory => true
  | .file _ _ => false

structure Disk where
  entries : List (Location × Entry) := []
  /-- The working directory. -/
  home : Location := []
  /-- The present time in milliseconds. -/
  clock : Int := 0

namespace Disk

/-- A disk that holds an empty working directory alone. -/
def empty (clock : Int) : Disk where
  entries := [(["work"], .directory)]
  home := ["work"]
  clock := clock

/-- What is at a place. The root is always there. -/
def get? (d : Disk) (place : Location) : Option Entry :=
  if place.isEmpty then some .directory else d.entries.lookup place

/-- Puts an entry at a place. -/
def set (d : Disk) (place : Location) (e : Entry) : Disk :=
  { d with entries := (place, e) :: d.entries.filter (·.1 != place) }

theorem get?_set_self (d : Disk) {place : Location} (h : place ≠ []) (e : Entry) :
    (d.set place e).get? place = some e := by
  simp [get?, set, h]

theorem lookup_filter_ne {place other : Location} (h : other ≠ place)
    (entries : List (Location × Entry)) :
    (entries.filter (·.1 != place)).lookup other = entries.lookup other := by
  induction entries with
  | nil => rfl
  | cons entry entries ih =>
    obtain ⟨key, e⟩ := entry
    by_cases hk : key = place
    · have hne : (other == place) = false := by simp [h]
      simp [hk, List.lookup_cons, ih, hne]
    · simp [hk, List.lookup_cons, ih]

theorem get?_set_of_ne (d : Disk) {place other : Location} (h : other ≠ place) (e : Entry) :
    (d.set place e).get? other = d.get? other := by
  have hne : (other == place) = false := by simp [h]
  simp [get?, set, List.lookup_cons, hne, lookup_filter_ne h]

/-- Removes an entry and all that is below it. -/
def erase (d : Disk) (place : Location) : Disk :=
  { d with entries := d.entries.filter fun entry => !place.isPrefixOf entry.1 }

/-- The names in a directory. -/
def names (d : Disk) (place : Location) : List String :=
  d.entries.filterMap fun entry =>
    if entry.1.dropLast == place then entry.1.getLast? else none

/-- All that is below a directory, by the names that lead there from it. -/
def below (d : Disk) (place : Location) : List (Location × Entry) :=
  d.entries.filterMap fun entry =>
    match Text.behind? place entry.1 with
    | some (name :: rest) => some (name :: rest, entry.2)
    | _ => none

/-- The bytes that a name may take. -/
def maxName : Nat := 255

/-- The bytes that a path may take. -/
def maxPath : Nat := 4095

/-- One name further from a place, which has to be a directory. -/
def step (d : Disk) (place : Location) (name : String) : Except FileError Location :=
  match d.get? place with
  | none => .error .missing
  | some (.file _ _) => .error .notDirectory
  | some .directory =>
    if name == ".." then .ok place.dropLast
    else if name.utf8ByteSize > maxName then .error .nameTooLong
    else .ok (place ++ [name])

/-- The place that a path leads to; nothing need be there. -/
def locate (d : Disk) (p : Path) : Except FileError Location :=
  if p.toText.utf8ByteSize > maxPath then .error .nameTooLong
  else p.parts.foldlM d.step (if p.root == 0 then d.home else [])

/-- The place that a path leads to. A path with a null character leads nowhere. -/
def find (d : Disk) (p : Path) : Except Fault Location :=
  if p.parts.any (·.toList.contains (Char.ofNat 0)) then .error .nulInPath
  else
    match d.locate p with
    | .ok place => .ok place
    | .error e => .error (.file e p.toText)

/-- What a path leads to. -/
def status (d : Disk) (p : Path) : Except Fault Entry := do
  let place ← d.find p
  match d.get? place with
  | some e => return e
  | none => throw (.file .missing p.toText)

/-- What a path leads to, if it leads anywhere. Only a name that is too long is a fault. -/
def peek (d : Disk) (p : Path) : Except Fault (Option Entry) :=
  match d.status p with
  | .ok e => .ok (some e)
  | .error (.file .nameTooLong shown) => .error (.file .nameTooLong shown)
  | .error _ => .ok none

/-- The path leads to something. -/
def holds (d : Disk) (p : Path) : Except Fault Bool := return (← d.peek p).isSome

def isFile (d : Disk) (p : Path) : Except Fault Bool :=
  return match ← d.peek p with
    | some (.file _ _) => true
    | _ => false

def isDirectory (d : Disk) (p : Path) : Except Fault Bool :=
  return match ← d.peek p with
    | some .directory => true
    | _ => false

/-- The bytes of a file. -/
def bytes (d : Disk) (p : Path) : Except Fault ByteArray := do
  match ← d.status p with
  | .file content _ => return content
  | .directory => throw (.file .isDirectory p.toText)

/-- The text of a file, with line feeds for all line ends. -/
def text (d : Disk) (p : Path) : Except Fault String := do
  match Text.decode (← d.bytes p) with
  | .ok s => return String.ofList (Text.unifyBreaks s.toList)
  | .error flaw => throw (.undecodable flaw)

/-- Writes a file now, in a directory that is there. -/
def write (d : Disk) (p : Path) (content : ByteArray) : Except Fault Disk := do
  let place ← d.find p
  match d.get? place with
  | some .directory => throw (.file .isDirectory p.toText)
  | _ => return d.set place (.file content d.clock)

/-- Copies a file with its time. Onto a directory it is copied into it, under its own name. -/
def copy (d : Disk) (source target : Path) : Except Fault Disk := do
  let inside := match d.status target with
    | .ok .directory => true
    | _ => false
  let target := if inside then target.join ⟨0, [source.name]⟩ else target
  match ← d.status source with
  | .directory => throw (.file .isDirectory source.toText)
  | .file content modified =>
    let place ← d.find target
    match d.get? place with
    | some .directory => throw (.file .isDirectory target.toText)
    | _ => return d.set place (.file content modified)

/-- Makes one directory where nothing is, in a directory that is there. -/
def makeDirectory (d : Disk) (p : Path) : Except Fault Disk := do
  let place ← d.find p
  match d.get? place with
  | some _ => throw (.file .present p.toText)
  | none => return d.set place .directory

end Disk

/-- A step that may change the disk. What it changed before it failed stays changed. -/
abbrev Act := ExceptT Fault (StateM Disk)

namespace Act

/-- Looks at the disk. -/
def look (f : Disk → Except Fault α) : Act α := do
  match f (← get) with
  | .ok a => return a
  | .error e => throw e

/-- Changes the disk. -/
def change (f : Disk → Except Fault Disk) : Act Unit := do
  match f (← get) with
  | .ok d => set d
  | .error e => throw e

/-- Runs a step and hands on what the disk refuses; every other fault goes through. -/
def attempt (act : Act α) : Act (Except Fault α) :=
  tryCatch (do return .ok (← act)) fun fault =>
    match fault with
    | .file _ _ => return .error fault
    | _ => throw fault

/-- Makes a directory, which may be there already. -/
def admitDirectory (p : Path) : Act Unit := do
  match ← attempt (change (·.makeDirectory p)) with
  | .ok () => return ()
  | .error fault =>
    if fault == .file .missing p.toText then throw fault
    else if !(← look (·.isDirectory p)) then throw fault

/-- Makes a directory and the directories above it, as far as they are missing. The names of the
path are given from the last one up. -/
def makeDirectories (root : Nat) : List String → Act Unit
  | [] => admitDirectory ⟨root, []⟩
  | name :: above => do
    let p : Path := ⟨root, (name :: above).reverse⟩
    match ← attempt (admitDirectory p) with
    | .ok () => return ()
    | .error fault =>
      if fault == .file .missing p.toText then
        makeDirectories root above
        admitDirectory p
      else throw fault

/-- Makes a directory with all directories above it. -/
def ensureDirectory (p : Path) : Act Unit := makeDirectories p.root p.parts.reverse

end Act

end FlowMachine
