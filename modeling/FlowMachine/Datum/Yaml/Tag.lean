import FlowMachine.Datum.Json
import FlowMachine.Datum.Yaml.Cursor

/-!
# Tags in a YAML text

A tag says what a node is. It is written in full between angle brackets, or as a handle and a
suffix, where a directive says what text the handle is short for.
-/
namespace FlowMachine.Yaml

/-- What a node is. -/
inductive Tag where
  | null
  | bool
  | int
  | real
  | text
  | moment
  | list
  | map
  /-- A list of pairs, each written as a mapping of one entry. -/
  | pairs
  /-- The key whose value is merged into a mapping. -/
  | merge
  /-- The key whose value a mapping stands for where a scalar is needed. -/
  | value
  | unknown
deriving DecidableEq, Repr

/-- What the second of the handles that are always known is short for. -/
def standardHandle : String := "tag:yaml.org,2002:"

namespace Tag

/-- The tags by their names behind the standard handle. -/
def names : List (String × Tag) :=
  [("null", .null), ("bool", .bool), ("int", .int), ("float", .real), ("str", .text),
   ("timestamp", .moment), ("seq", .list), ("map", .map), ("omap", .pairs), ("pairs", .pairs),
   ("merge", .merge), ("value", .value)]

/-- The tag of a full name. -/
def ofName (name : String) : Tag :=
  ((names.find? fun entry => standardHandle ++ entry.1 == name).map (·.2)).getD .unknown

end Tag

def isNameChar (c : Char) : Bool := c.isAlphanum || c == '-' || c == '_'

/-- A blank or the end of the line stands here. -/
def atGap (c : Cursor) : Bool := c.sees ' ' || endsLine (c.peek 0)

/-- The characters of a tag or of what a handle is short for. -/
def isUriChar (c : Char) : Bool := c.isAlphanum || "-;/?:@&=+$,_.!~*'()[]%".toList.contains c

/-- The bytes of a URI, in which an escape spells one byte by two digits. -/
def uriBytes? : List Char → Option (List UInt8)
  | [] => some []
  | '%' :: a :: b :: rest =>
    match Json.hexValue? a, Json.hexValue? b, uriBytes? rest with
    | some a, some b, some bytes => some (UInt8.ofNat (a * 16 + b) :: bytes)
    | _, _, _ => none
  | c :: rest => if c == '%' then none else (uriBytes? rest).map (UInt8.ofNat c.toNat :: ·)

/-- Reads a URI, which is not empty. -/
def readUri (c : Cursor) : Option (String × Cursor) := do
  let cs := c.front isUriChar
  let text ← String.fromUTF8? (ByteArray.mk (← uriBytes? cs).toArray)
  if cs.isEmpty then none else return (text, c.skip cs.length)

/-- Reads a handle: an exclamation mark alone in front of a blank, or two with a name between
them. -/
def readHandle (c : Cursor) : Option (String × Cursor) :=
  if !c.sees '!' then none
  else if c.peek 1 == some ' ' then some ("!", c.next)
  else
    let name := c.next.front isNameChar
    let behind := c.skip (name.length + 1)
    if behind.sees '!' then some (String.ofList ('!' :: name ++ ['!']), behind.next) else none

/-- Reads a tag at its exclamation mark, whatever stands behind it. -/
def readTagText (c : Cursor) : Option ((Option String × String) × Cursor) :=
  if c.peek 1 == some '<' then do
    let (text, c) ← readUri (c.skip 2)
    if c.sees '>' then return ((none, text), c.next) else none
  else if endsWord (c.peek 1) then some ((none, "!"), c.next)
  else do
    let word := c.next.front fun x => x != ' ' && !isBreak x
    let (handle, c) ← if word.contains '!' then readHandle c else some ("!", c.next)
    let (suffix, c) ← readUri c
    return ((some handle, suffix), c)

/-- Reads a tag at its exclamation mark: its handle, if it has one, and the text behind. -/
def readTag (c : Cursor) : Option ((Option String × String) × Cursor) :=
  (readTagText c).filter fun r => atGap r.2

end FlowMachine.Yaml
