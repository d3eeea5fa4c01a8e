import FlowMachine.Text.Blank
import FlowMachine.Text.Casing
import FlowMachine.Text.Search
import FlowMachine.Text.Word

/-!
# Edge labels

A label names an event and may carry references to a guard and to an action. The event name is what
is left of the label without its references. Keywords in the label tell what kind of transition the
edge is.
-/
namespace FlowMachine.Label

open FlowMachine.Text

/-- A small letter of a marker and a character of a text are the same letter up to case. -/
def sameLetter (letter c : Char) : Bool :=
  c == letter || c.toLower == letter ||
    (letter == 'i' && (c.toNat == 0x130 || c.toNat == 0x131)) ||
    (letter == 's' && c.toNat == 0x17F) || (letter == 'k' && c.toNat == 0x212A)

/-- The rest of a text behind a marker, whose case is free. -/
def afterMarker? : List Char → List Char → Option (List Char)
  | [], cs => some cs
  | _ :: _, [] => none
  | m :: ms, c :: cs => if sameLetter m c then afterMarker? ms cs else none

/-- How a reference is written: in square brackets, or as a marker followed by a name. A `bounded`
marker starts a word, and a `spaced` one is parted from the name by at least one blank. -/
inductive Form where
  | bracketed
  | marked (marker : String) (bounded spaced : Bool)
deriving DecidableEq, Repr

/-- Guard references, the form that counts first in front. -/
def guardForms : List Form :=
  [.marked "guard:" false false, .bracketed, .marked "when" true true]

/-- Action references, the form that counts first in front. -/
def actionForms : List Form :=
  [.marked "action:" false false, .marked "do:" true false, .marked "execute:" false false]

/-- Reads a reference at the front of a text, where `prev` is the character before it: the name and
what follows the reference. -/
def Form.read? (form : Form) (prev : Option Char) (cs : List Char) :
    Option (List Char × List Char) :=
  match form with
  | .bracketed =>
    match cs with
    | '[' :: inner =>
      let name := inner.takeWhile (· != ']')
      match inner.dropWhile (· != ']') with
      | _ :: rest => if name.isEmpty then none else some (name, rest)
      | [] => none
    | _ => none
  | .marked marker bounded spaced =>
    if bounded && prev.any isWord then none
    else
      match afterMarker? marker.toList cs with
      | none => none
      | some rest =>
        if spaced && !(rest.head?.any isBlank) then none
        else
          let body := trimStart rest
          let name := body.takeWhile isWord
          if name.isEmpty then none else some (name, body.dropWhile isWord)

/-- The name in the first reference of a form. -/
def Form.find? (form : Form) (prev : Option Char) : List Char → Option (List Char)
  | [] => none
  | c :: cs =>
    match form.read? prev (c :: cs) with
    | some (name, _) => some name
    | none => form.find? (some c) cs

/-- Replaces every reference of a form by a space, after passing over `skip` characters that belong
to the previous reference. -/
def Form.eraseFrom (form : Form) (prev : Option Char) : Nat → List Char → List Char
  | _, [] => []
  | skip + 1, c :: cs => form.eraseFrom (some c) skip cs
  | 0, c :: cs =>
    match form.read? prev (c :: cs) with
    | some (_, rest) => ' ' :: form.eraseFrom (some c) (cs.length - rest.length) cs
    | none => c :: form.eraseFrom (some c) 0 cs

/-- Replaces every reference of a form by a space. -/
def Form.erase (form : Form) (cs : List Char) : List Char := form.eraseFrom none 0 cs

/-- The trimmed name of the first form that occurs. -/
def reference? (forms : List Form) (label : String) : Option String :=
  (forms.findSome? fun form => form.find? none label.toList).map fun name =>
    String.ofList (trim name)

def guard? (label : String) : Option String := reference? guardForms label

def action? (label : String) : Option String := reference? actionForms label

/-- The characters of a label without its references. -/
def withoutReferences (cs : List Char) : List Char :=
  (guardForms ++ actionForms).foldl (fun text form => form.erase text) cs

/-- A character of an event name other than the underscore. -/
def isEventChar (c : Char) : Bool := c.isUpper || c.isDigit

/-- The event a label names: what is left without references, in upper case, with underscores
between its runs of capitals and digits. It is empty when nothing is left. -/
def eventName (label : String) : String :=
  String.ofList (joinChars ['_']
    (piecesWhere (!isEventChar ·) (upperChars (withoutReferences label.toList))))

/-- What kind of transition an edge is. -/
inductive Kind where
  | userInput
  | systemAction
  | conditional
  | error
  | timeout
  | external
deriving DecidableEq, Repr

namespace Kind

def name : Kind → String
  | .userInput => "user_input"
  | .systemAction => "system_action"
  | .conditional => "conditional"
  | .error => "error"
  | .timeout => "timeout"
  | .external => "external"

/-- Keywords of the kinds; the first group with a keyword in the label decides. -/
def keywords : List (Kind × List String) :=
  [(.userInput, ["input", "select"]), (.error, ["error", "fail"]), (.timeout, ["timeout"]),
   (.external, ["verify", "check"]), (.conditional, ["yes", "no", "if"])]

/-- The kind of transition that a label announces. -/
def ofLabel (label : String) : Kind :=
  let text := lower label
  match keywords.find? fun group => group.2.any (within · text) with
  | some group => group.1
  | none => .systemAction

end Kind

/-- Keywords that make a state final. -/
def closingWords : List String := ["end", "final", "close", "exit", "goodbye", "session"]

/-- The label of a state announces that it is final. -/
def isFinal (label : String) : Bool :=
  let text := lower label
  closingWords.any (within · text)

/-- Trims a text and removes one pair of equal quotes around it. -/
def unquote (cs : List Char) : List Char :=
  let text := trim cs
  match text with
  | [] => []
  | q :: rest =>
    if (q == '"' || q == '\'') && rest.getLast? == some q then trim rest.dropLast else text

end FlowMachine.Label
