import FlowMachine.Text.Blank
import FlowMachine.Text.Search

/-!
# Paths

A path is a root and the components below it. Empty components and single dots are dropped when a
path is read, and double dots are kept. Two slashes in front are a root of their own.
-/
namespace FlowMachine

structure Path where
  /-- The slashes in front: none, one or two. -/
  root : Nat := 0
  parts : List String := []
deriving DecidableEq, Repr

namespace Path

/-- The components of a text between slashes. -/
def partsOf (cs : List Char) : List String :=
  ((Text.splitWhere (· == '/') cs).filter fun part => part != [] && part != ['.']).map String.ofList

def ofText (s : String) : Path :=
  let slashes := (s.toList.takeWhile (· == '/')).length
  ⟨if slashes == 2 then 2 else min slashes 1, partsOf s.toList⟩

def toText (p : Path) : String :=
  if p.root == 0 && p.parts.isEmpty then "."
  else String.ofList (List.replicate p.root '/') ++ "/".intercalate p.parts

/-- A path below another one; a path with a root stands for itself. -/
def join (p q : Path) : Path := if q.root == 0 then ⟨p.root, p.parts ++ q.parts⟩ else q

/-- The last component, or nothing. -/
def name (p : Path) : String := p.parts.getLast?.getD ""

/-- The path without its last component. -/
def parent (p : Path) : Path := ⟨p.root, p.parts.dropLast⟩

/-- The path with another last component. -/
def withName (p : Path) (name : String) : Path := ⟨p.root, p.parts.dropLast ++ [name]⟩

/-- Splits a name at its last dot, unless the dot stands first or last. -/
def splitName (name : String) : String × String :=
  let cs := name.toList
  let tail := Text.takeEndWhile (· != '.') cs
  let front := (Text.dropEndWhile (· != '.') cs).dropLast
  if tail.length == cs.length || tail.isEmpty || front.isEmpty then (name, "")
  else (String.ofList front, String.ofList ('.' :: tail))

/-- The last component without its ending. -/
def stem (p : Path) : String := (splitName p.name).1

/-- The ending of the last component, with its dot. -/
def suffix (p : Path) : String := (splitName p.name).2

/-- The last component of a text that names a path. -/
def baseName (s : String) : String := (ofText s).name

end Path

end FlowMachine
