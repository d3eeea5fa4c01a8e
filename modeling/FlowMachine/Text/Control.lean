import FlowMachine.Text.Word

/-!
# Control sequences of terminals

A sequence that sets colours and the like shows nothing, and a link shows its caption. What is left
of a text without its sequences is what takes up room.
-/
namespace FlowMachine.Text

/-- The character that starts a control sequence. -/
def escape : Char := '\x1b'

/-- The character is in a range of character codes. -/
def between (first last : Nat) (c : Char) : Bool :=
  decide (first ≤ c.toNat) && decide (c.toNat ≤ last)

/-- How far a list of named values has been read. -/
inductive ParameterState where
  | start
  | name
  | equals
  /-- A value of one character. -/
  | value
  /-- A value of more characters, the last of which may be the next name. -/
  | longValue
  | bad
deriving DecidableEq, Repr

namespace ParameterState

def step : ParameterState → Char → ParameterState
  | .start, c => if isWord c then .name else .bad
  | .name, c => if c == '=' then .equals else if isWord c then .name else .bad
  | .equals, c => if isWord c then .value else .bad
  | .value, c => if c == ':' then .start else if isWord c then .longValue else .bad
  | .longValue, c =>
    if c == ':' then .start else if c == '=' then .equals else if isWord c then .longValue else .bad
  | .bad, _ => .bad

def accepts : ParameterState → Bool
  | .start | .value | .longValue => true
  | _ => false

end ParameterState

/-- The text is a list of named values: names and values are words, and a colon may follow a
value. -/
def isParameters (cs : List Char) : Bool := (cs.foldl ParameterState.step .start).accepts

/-- What stands behind the start of a sequence that shows nothing. -/
def behindStyle? (cs : List Char) : Option (List Char) :=
  match (cs.dropWhile (between 0x30 0x3F)).dropWhile (between 0x20 0x2F) with
  | c :: rest => if between 0x40 0x7E c then some rest else none
  | [] => none

/-- A text that is not empty, up to the next control sequence, and what stands there. -/
def untilEscape? (cs : List Char) : Option (List Char × List Char) :=
  let front := cs.takeWhile (· != escape)
  if front.isEmpty then none else some (front, cs.dropWhile (· != escape))

/-- The caption of a link and what stands behind it. -/
def readLink? (cs : List Char) : Option (List Char × List Char) := do
  let (parameters, rest) ← cutAt? [';'] (← behind? "8;".toList cs)
  if !isParameters parameters then none
  let (_, rest) ← untilEscape? rest
  let (caption, rest) ← untilEscape? (← behind? [escape, '\\'] rest)
  return (caption, ← behind? ([escape] ++ "]8;;".toList ++ [escape, '\\']) rest)

/-- What a control sequence at the front of a text shows, and what stands behind it. -/
def readControl? : List Char → Option (List Char × List Char)
  | start :: '[' :: cs => if start == escape then (behindStyle? cs).map ([], ·) else none
  | start :: ']' :: cs => if start == escape then readLink? cs else none
  | _ => none

/-- A control sequence occurs in the text. -/
def hasControl : List Char → Bool
  | [] => false
  | c :: cs => (readControl? (c :: cs)).isSome || hasControl cs

/-- What a text shows, after passing over `skip` characters that belong to a control sequence. -/
def visibleFrom : Nat → List Char → List Char
  | _, [] => []
  | skip + 1, _ :: cs => visibleFrom skip cs
  | 0, c :: cs =>
    match readControl? (c :: cs) with
    | some (shown, rest) => shown ++ visibleFrom (cs.length - rest.length) cs
    | none => c :: visibleFrom 0 cs

/-- What a text shows. -/
def visible (cs : List Char) : List Char := visibleFrom 0 cs

end FlowMachine.Text
