import FlowMachine.Text.Blank
import FlowMachine.Text.Casing
import FlowMachine.Text.Search
import FlowMachine.Text.Word

/-!
# Identifiers

Machine ids, module, class and method names, derived from arbitrary text. Every function is total
and yields a usable identifier.
-/
namespace FlowMachine.Identifier

open FlowMachine.Text

/-- Words that the language of the written modules reserves, in lower case. -/
def reservedWords : List String :=
  ["and", "as", "assert", "async", "await", "break", "class", "continue", "def", "del", "elif",
   "else", "except", "finally", "for", "from", "global", "if", "import", "in", "is", "lambda",
   "nonlocal", "not", "or", "pass", "raise", "return", "try", "while", "with", "yield"]

/-- Attributes that every model object has already. -/
def modelMembers : List String :=
  ["available_events", "context", "dispatch", "finished", "history", "machine", "may_trigger",
   "services", "snapshot", "state", "trigger"]

/-- The ending of every machine id. -/
def machineSuffix : String := "Machine"

/-- Puts an underscore in front of a text that starts with a digit. -/
def shieldDigit (cs : List Char) : List Char :=
  match cs with
  | [] => []
  | c :: _ => if c.isDigit then '_' :: cs else cs

/-- The letters and digits of a name in lower case, without a trailing `machine`. -/
def machineStem (cs : List Char) : List Char :=
  let stem := (cs.filter Char.isAlphanum).map Char.toLower
  (stripEnd? "machine".toList stem).getD stem

/-- The machine id of a name: its stem followed by `Machine`. -/
def machineId (name : String) : String :=
  String.ofList (shieldDigit (machineStem name.toList) ++ machineSuffix.toList)

/-- The first character in upper case, the others in lower case. -/
def capitalize (cs : List Char) : List Char :=
  upperChars (cs.take 1) ++ lowerChars (cs.drop 1)

/-- The words of a name, parted by hyphens, underscores and blanks, with capital initials. -/
def displayName (name : String) : String :=
  let parts := piecesWhere (fun c => c == '-' || c == '_' || isBlank c) name.toList
  String.ofList (joinChars [' '] (parts.map capitalize))

/-- A capital starts a new word after a small letter or a digit, and after another capital when a
small letter follows. -/
def startsHump (prev : Option Char) (c : Char) (next : Option Char) : Bool :=
  c.isUpper &&
    (prev.any (fun p => p.isLower || p.isDigit) || (prev.any Char.isUpper && next.any Char.isLower))

/-- Puts an underscore in front of every capital that starts a new word. -/
def markHumps (prev : Option Char) : List Char → List Char
  | [] => []
  | c :: cs =>
    (if startsHump prev c cs.head? then ['_', c] else [c]) ++ markHumps (some c) cs

/-- The words of a name in lower case with underscores between them. -/
def snakeWords (cs : List Char) : List Char :=
  (joinChars ['_'] (piecesWhere (!·.isAlphanum) (markHumps none cs))).map Char.toLower

/-- The snake-case identifier of a name: never empty, never a reserved word, and with no digit in
front. -/
def snake (name : String) : String :=
  let text := shieldDigit (snakeWords name.toList)
  if text.isEmpty then "_"
  else
    let word := String.ofList text
    if reservedWords.contains word then word ++ "_" else word

def trimUnderscores (s : String) : String :=
  String.ofList (dropEndWhile (· == '_') (s.toList.dropWhile (· == '_')))

/-- The method name of a guard or an action. A name that starts with an underscore, that every model
has already or that is `taken` gets its role in front. -/
def method (name role : String) (taken : List String) : String :=
  let word := snake name
  if modelMembers.contains word || taken.contains word || word.toList.head? == some '_' then
    role ++ "_" ++ trimUnderscores word
  else word

/-- The class name of a machine id: no underscore in front, and a capital initial. -/
def className (machineId : String) : String :=
  match machineId.toList.dropWhile (· == '_') with
  | [] => "M"
  | c :: cs => if isDigit c then String.ofList ('M' :: c :: cs)
    else String.ofList (upperChar c ++ cs)

end FlowMachine.Identifier
