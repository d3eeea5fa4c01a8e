import FlowMachine.Datum.Yaml.Tag
import FlowMachine.Moment

/-!
# Forms of plain scalars

A plain scalar is a truth value, a number, a moment or nothing when it is written as one, and a text
otherwise. Integers are decimal, binary, octal, hexadecimal, or have places of sixty. Underscores
may stand between digits.
-/
namespace FlowMachine.Yaml

def truths : List String := ["yes", "Yes", "YES", "true", "True", "TRUE", "on", "On", "ON"]

def falsehoods : List String := ["no", "No", "NO", "false", "False", "FALSE", "off", "Off", "OFF"]

def nulls : List String := ["~", "null", "Null", "NULL"]

/-- A number without the sign in front of it. -/
def unsigned (cs : List Char) : List Char :=
  match cs with
  | '-' :: rest => rest
  | '+' :: rest => rest
  | _ => cs

/-- A digit or an underscore. -/
def isPlace (c : Char) : Bool := c.isDigit || c == '_'

/-- A digit, and behind it digits and underscores. -/
def isPlaces (cs : List Char) : Bool := cs.head?.any Char.isDigit && cs.all isPlace

/-- A place of sixty: one digit, or two below sixty. -/
def isSixtieth (cs : List Char) : Bool :=
  match cs with
  | [c] => c.isDigit
  | [c, d] => c.isDigit && c.toNat < 54 && d.isDigit
  | _ => false

/-- The pieces of a text between colons. -/
def splitColons (cs : List Char) : List (List Char) :=
  cs.foldr (fun c pieces => match pieces with
    | [] => [[c]]
    | piece :: rest => if c == ':' then [] :: piece :: rest else (c :: piece) :: rest) [[]]

/-- Digits of a base and underscores, at least one of either. -/
def isBased (base : Nat) (cs : List Char) : Bool :=
  !cs.isEmpty && cs.all fun c => c == '_' || (Json.hexValue? c).any (· < base)

/-- An integer without its sign. -/
def isNatural (cs : List Char) : Bool :=
  match cs with
  | ['0'] => true
  | '0' :: 'b' :: rest => isBased 2 rest
  | '0' :: 'x' :: rest => isBased 16 rest
  | '0' :: rest => isBased 8 rest
  | _ =>
    match splitColons cs with
    | [] => false
    | first :: places => isPlaces first && places.all isSixtieth

def isInteger (cs : List Char) : Bool := isNatural (unsigned cs)

/-- The power of ten behind a real number: nothing, or a letter, a sign and digits. -/
def isPower (cs : List Char) : Bool :=
  match cs with
  | [] => true
  | e :: sign :: digits =>
    (e == 'e' || e == 'E') && (sign == '-' || sign == '+') && !digits.isEmpty &&
      digits.all Char.isDigit
  | _ => false

/-- Digits with a point behind the first of them, without a sign. -/
def isPositional (cs : List Char) : Bool :=
  match cs.dropWhile isPlace with
  | '.' :: rest => isPlaces (cs.takeWhile isPlace) && isPower (rest.dropWhile isPlace)
  | _ => false

/-- The last place of sixty, with a point behind it. -/
def isLastSixtieth (cs : List Char) : Bool :=
  match cs.dropWhile (· != '.') with
  | '.' :: rest => isSixtieth (cs.takeWhile (· != '.')) && rest.all isPlace
  | _ => false

/-- A number with places of sixty, the last of which has a point behind it. -/
def isSexagesimal (cs : List Char) : Bool :=
  match splitColons cs with
  | first :: place :: places =>
    let places := place :: places
    isPlaces first && places.dropLast.all isSixtieth && places.getLast?.any isLastSixtieth
  | _ => false

/-- A real number. One that starts with its point has no sign. -/
def isReal (cs : List Char) : Bool :=
  let body := unsigned cs
  let pointed := match cs with
    | '.' :: c :: rest => c.isDigit && isPower (rest.dropWhile isPlace)
    | _ => false
  pointed || isPositional body || isSexagesimal body ||
    [".inf", ".Inf", ".INF"].contains (String.ofList body) ||
    [".nan", ".NaN", ".NAN"].contains (String.ofList cs)

/-- The numbers that a moment is written with. -/
structure MomentParts where
  year : Nat
  month : Nat
  day : Nat
  clock : Option Clock
deriving DecidableEq, Repr

/-- Reads between `least` and `most` digits, as many as there are. -/
def readDigits (least most : Nat) (cs : List Char) : Option (Nat × List Char) :=
  let digits := (cs.take most).takeWhile Char.isDigit
  if digits.length < least then none else some (Json.digitsValue digits, cs.drop digits.length)

/-- What stands behind a character. -/
def behindMark (mark : Char) : List Char → Option (List Char)
  | [] => none
  | c :: cs => if c == mark then some cs else none

/-- Reads the distance of a clock from Greenwich in minutes, up to the end of the text. -/
def readAhead (cs : List Char) : Option (Option Int) :=
  if cs.isEmpty then some none
  else
    match cs.dropWhile fun c => c == ' ' || c == '\t' with
    | ['Z'] => some (some 0)
    | sign :: rest => do
      let (hours, rest) ← readDigits 1 2 rest
      let (minutes, rest) ← if rest.isEmpty then some (0, []) else
        (behindMark ':' rest).bind (readDigits 2 2)
      let total : Int := (hours * 60 + minutes : Nat)
      if !rest.isEmpty then none
      else if sign == '-' then return some (-total)
      else if sign == '+' then return some total
      else none
    | [] => none

/-- Reads the time of a day, up to the end of the text. Six places of a second count. -/
def readClock (cs : List Char) : Option Clock := do
  let (hour, cs) ← readDigits 1 2 cs
  let (minute, cs) ← readDigits 2 2 (← behindMark ':' cs)
  let (second, cs) ← readDigits 2 2 (← behindMark ':' cs)
  let (fraction, cs) := match cs with
    | '.' :: rest => (rest.takeWhile Char.isDigit, rest.dropWhile Char.isDigit)
    | _ => ([], cs)
  let micro := Json.digitsValue ((fraction ++ List.replicate 6 '0').take 6)
  return ⟨hour, minute, second, micro, ← readAhead cs⟩

/-- Reads the numbers of a moment. A letter or blanks stand in front of the time. -/
def readMoment (cs : List Char) : Option MomentParts := do
  let (year, cs) ← readDigits 4 4 cs
  let (month, cs) ← readDigits 1 2 (← behindMark '-' cs)
  let (day, cs) ← readDigits 1 2 (← behindMark '-' cs)
  match cs with
  | [] => return ⟨year, month, day, none⟩
  | c :: rest =>
    if c == 'T' || c == 't' then return ⟨year, month, day, some (← readClock rest)⟩
    else if c == ' ' || c == '\t' then
      let rest := rest.dropWhile fun c => c == ' ' || c == '\t'
      return ⟨year, month, day, some (← readClock rest)⟩
    else none

/-- A plain scalar is a moment: a day has two digits for its month and two for its day. -/
def isMoment (cs : List Char) : Bool :=
  (readMoment cs).any fun parts => parts.clock.isSome || cs.length == 10

/-- A text without one line feed at its end. -/
def withoutBreak (s : String) : List Char :=
  let cs := s.toList
  if cs.getLast? == some '\n' then cs.dropLast else cs

/-- The tag of a plain scalar. One line feed at its end does not count. -/
def Tag.ofPlain (s : String) : Tag :=
  let cs := withoutBreak s
  let word := String.ofList cs
  if truths.contains word || falsehoods.contains word then .bool
  else if isReal cs then .real
  else if isInteger cs then .int
  else if word == "<<" then .merge
  else if s.isEmpty || nulls.contains word then .null
  else if isMoment cs then .moment
  else if word == "=" then .value
  else if word == "!" || word == "&" || word == "*" then .unknown
  else .text

end FlowMachine.Yaml
