import FlowMachine.Settings

/-!
# What is checked

The options that the lint and the audit share, as the settings give them.
-/
namespace FlowMachine

/-- The categories that machines may have: names, or the parts of a text. -/
inductive AllowedCategories where
  | named (names : List String)
  | within (text : String)
deriving DecidableEq, Repr

namespace AllowedCategories

def admits : AllowedCategories → String → Bool
  | .named names, c => names.contains c
  | .within text, c => Text.within c text

/-- The categories as a message lists them. -/
def listed : AllowedCategories → String
  | .named names => ", ".intercalate names
  | .within text => ", ".intercalate (text.toList.map fun c => String.ofList [c])

end AllowedCategories

/-- Options of the lint and of the audit. -/
structure CheckOptions where
  strict : Bool := false
  business : Bool := true
  naming : Bool := true
  navigation : Bool := true
  maxStates : Limit := .ofInt 50
  maxTransitions : Limit := .ofInt 20
  allowed : AllowedCategories := .named (Category.all.map Category.name)
deriving DecidableEq, Repr

namespace RuleSettings

/-- The keys or texts among which a category is looked for. -/
def allowedNames : Datum → List String
  | .list items => items.filterMap fun d => match d with
    | .text s => some s
    | _ => none
  | .map entries => entries.filterMap fun e => match e.1 with
    | .text s => some s
    | _ => none
  | _ => []

def allowed : Datum → AllowedCategories
  | .text s => .within s
  | d => .named (allowedNames d)

/-- The options that settings stand for. -/
def toOptions (s : RuleSettings) : CheckOptions where
  strict := s.strictMode.truthy
  business := s.checkBusinessRules.truthy
  naming := s.validateNaming.truthy
  navigation := s.checkNavigation.truthy
  maxStates := (Limit.ofDatum? s.maxStates).getD (.ofInt 50)
  maxTransitions := (Limit.ofDatum? s.maxTransitions).getD (.ofInt 20)
  allowed := allowed s.allowedCategories

/-- The first item that is no text, with its position. -/
def firstNonText : Nat → List Datum → Option Fault
  | _, [] => none
  | n, .text _ :: rest => firstNonText (n + 1) rest
  | n, d :: _ => some (.kind (.notText n d.familyName))

/-- The fault that looking up categories runs into: the allowed categories are no collection, or
they have to be listed for a category outside of them and are not all texts. -/
def allowedFault? (s : RuleSettings) (categories : List String) : Option Fault :=
  let outside := categories.any fun c => !(allowed s.allowedCategories).admits c
  match s.allowedCategories with
  | .text _ => none
  | .list items => if outside then firstNonText 0 items else none
  | .map entries => if outside then firstNonText 0 (entries.map (·.1.toDatum)) else none
  | d => if categories.isEmpty then none else some (.kind (.notContainer d.familyName))

end RuleSettings

namespace Check

/-- A text without one line feed at its end. -/
def dropFinalBreak (cs : List Char) : List Char :=
  if cs.getLast? == some '\n' then cs.dropLast else cs

/-- A capital followed by letters and digits. -/
def isPascalCase (s : String) : Bool :=
  match dropFinalBreak s.toList with
  | [] => false
  | c :: cs => c.isUpper && cs.all Char.isAlphanum

/-- Capitals, digits and underscores, with no digit in front. -/
def isUpperSnake (s : String) : Bool :=
  match dropFinalBreak s.toList with
  | [] => false
  | c :: cs => (c.isUpper || c == '_') && cs.all fun d => d.isUpper || d.isDigit || d == '_'

end Check

end FlowMachine
