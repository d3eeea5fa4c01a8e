import FlowMachine.Identifier
import FlowMachine.Module.Token

/-!
# Reading tokens of a module

A reader takes tokens from the front of a list. It fails at a token that has no place where it
stands, or with a remark on what is wrong there.
-/
namespace FlowMachine.Module

/-- What is wrong with a piece of a module text. Expressions are given by the name of their kind. -/
inductive Remark where
  | expected (mark : String)
  | noBlock (owner : String) (line : Nat)
  | missingComma
  | missingElse
  /-- An old statement that is a function now. -/
  | statementCall (name : String)
  /-- An equals sign where values are compared or named. -/
  | equalsSign
  | assignment (kind : String) (compares : Bool)
  | deletion (kind : String)
  | naming (kind : String)
  | augmentation (kind : String)
  | annotated (kind : Option String)
  | yieldAssignment
  | argumentAssignment
  | bareGenerator
  | positionalArgument (unpacked : Bool)
  | starredArgument
  | starredGroup (double : Bool)
  | unpackingComprehension (ofMapping : Bool)
  | comprehensionTarget
  | keyAlone
  | keyWithoutValue
  | starredValue
  | plainParameter
  | firstSlash
  | secondSlash
  | lateSlash
  | slashBeforeStar
  | bareStar
  | secondStar
  | starDefault (double : Bool)
  | lateParameter
  | missingDefault
  | parameterGroup (ofLambda : Bool)
  | trailingComma
  | noHandler
  | handlersMixed
  | handlerList
  | handlerWithoutType
  | stringsMixed
deriving DecidableEq, Repr

namespace Remark

def message : Remark → String
  | .expected mark => s!"expected '{mark}'"
  | .noBlock owner line => s!"expected an indented block after {owner} on line {line}"
  | .missingComma => "invalid syntax. Perhaps you forgot a comma?"
  | .missingElse => "expected 'else' after 'if' expression"
  | .statementCall name => s!"Missing parentheses in call to '{name}'. Did you mean {name}(...)?"
  | .equalsSign => "invalid syntax. Maybe you meant '==' or ':=' instead of '='?"
  | .assignment kind compares =>
    s!"cannot assign to {kind}" ++
      if compares then " here. Maybe you meant '==' instead of '='?" else ""
  | .deletion kind => s!"cannot delete {kind}"
  | .naming kind => s!"cannot use assignment expressions with {kind}"
  | .augmentation kind => s!"'{kind}' is an illegal expression for augmented assignment"
  | .annotated (some kind) => s!"only single target (not {kind}) can be annotated"
  | .annotated none => "illegal target for annotation"
  | .yieldAssignment => "assignment to yield expression not possible"
  | .argumentAssignment => "expression cannot contain assignment, perhaps you meant \"==\"?"
  | .bareGenerator => "Generator expression must be parenthesized"
  | .positionalArgument unpacked =>
    "positional argument follows keyword argument" ++ if unpacked then " unpacking" else ""
  | .starredArgument => "iterable argument unpacking follows keyword argument unpacking"
  | .starredGroup double =>
    if double then "cannot use double starred expression here"
    else "cannot use starred expression here"
  | .unpackingComprehension ofMapping =>
    if ofMapping then "dict unpacking cannot be used in dict comprehension"
    else "iterable unpacking cannot be used in comprehension"
  | .comprehensionTarget => "did you forget parentheses around the comprehension target?"
  | .keyAlone => "':' expected after dictionary key"
  | .keyWithoutValue => "expression expected after dictionary key and ':'"
  | .starredValue => "cannot use a starred expression in a dictionary value"
  | .plainParameter => "non-default argument follows default argument"
  | .firstSlash => "at least one argument must precede /"
  | .secondSlash => "/ may appear only once"
  | .lateSlash => "/ must be ahead of *"
  | .slashBeforeStar => "expected comma between / and *"
  | .bareStar => "named arguments must follow bare *"
  | .secondStar => "* argument may appear only once"
  | .starDefault double =>
    (if double then "var-keyword" else "var-positional") ++ " argument cannot have default value"
  | .lateParameter => "arguments cannot follow var-keyword argument"
  | .missingDefault => "expected default value expression"
  | .parameterGroup ofLambda =>
    (if ofLambda then "Lambda expression" else "Function") ++ " parameters cannot be parenthesized"
  | .trailingComma => "trailing comma not allowed without surrounding parentheses"
  | .noHandler => "expected 'except' or 'finally' block"
  | .handlersMixed => "cannot have both 'except' and 'except*' on the same 'try'"
  | .handlerList => "multiple exception types must be parenthesized"
  | .handlerWithoutType => "expected one or more exception types"
  | .stringsMixed => "cannot mix bytes and nonbytes literals"

end Remark

/-- Why tokens form no module. The tokens from that place on are kept, and those from the last token
on that was looked at to find out more. -/
inductive ParseFault where
  | misplaced (rest : List Token) (seen : List Token)
  | remarked (remark : Remark) (line : Nat) (seen : List Token)

/-- Reads from the front of a list of tokens. The flag tells whether remarks are looked for; without
it a fault is just a misplaced token. -/
abbrev Reader := ReaderT Bool (StateT (List Token) (Except ParseFault))

/-- Reserved words, which name nothing. -/
def keywords : List String := ["False", "None", "True"] ++ Identifier.reservedWords

/-- A mark or keyword stands at the front. -/
def frontIs (word : String) (ts : List Token) : Bool :=
  match ts with
  | ⟨.mark text, _, _⟩ :: _ => text == word
  | ⟨.name text, _, _⟩ :: _ => text == word
  | _ => false

/-- A name that is no keyword stands at the front. -/
def frontName? (ts : List Token) : Option String :=
  match ts with
  | ⟨.name word, _, _⟩ :: _ => if keywords.contains word then none else some word
  | _ => none

/-- The text breaks off at the front. -/
def frontBad (ts : List Token) : Bool :=
  match ts with
  | ⟨.bad _, _, _⟩ :: _ => true
  | _ => false

/-- The line ends at the front. -/
def frontBreak (ts : List Token) : Bool :=
  match ts with
  | ⟨.newline, _, _⟩ :: _ => true
  | _ => false

def lineOf (ts : List Token) : Nat := (ts.head?.map (·.line)).getD 0

/-- An expression may start at the front. -/
def startsExpression (ts : List Token) : Bool :=
  match ts with
  | ⟨.number, _, _⟩ :: _ => true
  | ⟨.string _ _, _, _⟩ :: _ => true
  | ⟨.name word, _, _⟩ :: _ =>
    !keywords.contains word || ["not", "lambda", "await", "None", "True", "False"].contains word
  | ⟨.mark text, _, _⟩ :: _ => ["(", "[", "\x7b", "-", "+", "~", "..."].contains text
  | _ => false

def sees (word : String) : Reader Bool := return frontIs word (← get)

def seesAny (words : List String) : Reader Bool := do
  let ts ← get
  return words.any (frontIs · ts)

def skip : Reader Unit := modify List.tail

def misplaced {α : Type} : Reader α := do
  let rest ← get
  throw (.misplaced rest rest)

/-- Fails with a remark on a line. -/
def remarkOn {α : Type} (line : Nat) (remark : Remark) : Reader α := do
  if ← read then throw (.remarked remark line (← get)) else misplaced

/-- Fails with a remark on the line at the front. -/
def remark {α : Type} (r : Remark) : Reader α := do remarkOn (lineOf (← get)) r

/-- Takes a mark or keyword if it stands at the front. -/
def accept (word : String) : Reader Bool := do
  if ← sees word then
    skip
    return true
  return false

/-- Takes one of several marks or keywords. -/
def acceptAny (words : List String) : Reader Bool := do
  if ← seesAny words then
    skip
    return true
  return false

def take (word : String) : Reader Unit := do
  unless ← accept word do misplaced

/-- Takes a mark that has to stand here. -/
def demand (word : String) : Reader Unit := do
  unless ← accept word do
    if frontBad (← get) then misplaced
    remark (.expected word)

/-- Takes the colon of a statement, which is missed when the line ends. -/
def takeColon : Reader Unit := do
  unless ← accept ":" do
    if frontBreak (← get) then remark (.expected ":")
    misplaced

def takeName : Reader String := do
  match frontName? (← get) with
  | some word =>
    skip
    return word
  | none => misplaced

def takeNewline : Reader Unit := do
  if frontBreak (← get) then skip else misplaced

def frontLine : Reader Nat := return lineOf (← get)

/-- Reads without looking for remarks. -/
def quietly {α : Type} (r : Reader α) : Reader α := fun _ ts => r false ts

/-- What a reader would read here, with the tokens behind it, or else the tokens from the misplaced
one on. Nothing is read. It cannot look behind the place where the text breaks off, and a remark is
told at once. -/
def attempt {α : Type} (r : Reader α) : Reader (Except (List Token) (α × List Token)) :=
  fun telling ts =>
  match r telling ts with
  | .ok result => .ok (.ok result, ts)
  | .error (.misplaced rest seen) =>
    if frontBad rest then .error (.misplaced rest seen) else .ok (.error rest, ts)
  | .error fault => .error fault

/-- A reader would succeed here. -/
def succeeds {α : Type} (r : Reader α) : Reader Bool := return (← attempt r).isOk

/-- Reads one thing, or else another. Of two faults the one that is further on is told, and a remark
is told at once. -/
def either {α : Type} (a b : Reader α) : Reader α := fun telling ts =>
  match a telling ts with
  | .error (.misplaced rest seen) =>
    match b telling ts with
    | .error (.misplaced other otherSeen) =>
      if rest.length < other.length then .error (.misplaced rest seen)
      else .error (.misplaced other otherSeen)
    | result => result
  | result => result

end FlowMachine.Module
