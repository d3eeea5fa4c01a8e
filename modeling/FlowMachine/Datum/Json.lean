import FlowMachine.Datum
import FlowMachine.Text.Search

/-!
# JSON

Data as JSON text, written in one line or indented by two spaces, with every character beyond ASCII
escaped by its 16-bit units. The reader accepts numbers of any size and the names of the special
numbers; of a key that occurs twice the last value counts, in the place of the first.
-/
namespace FlowMachine.Json

open FlowMachine.Text

/-- The escape of one 16-bit unit. -/
def unitEscape (n : Nat) : List Char := '\\' :: 'u' :: hexDigits 4 n

/-- How one character is written inside a string. -/
def escapeChar (c : Char) : List Char :=
  if c == '"' || c == '\\' then ['\\', c]
  else if c == '\n' then ['\\', 'n']
  else if c == '\r' then ['\\', 'r']
  else if c == '\t' then ['\\', 't']
  else if c.toNat == 8 then ['\\', 'b']
  else if c.toNat == 12 then ['\\', 'f']
  else if 0x20 ≤ c.toNat && c.toNat < 0x7F then [c]
  else if c.toNat < 0x10000 then unitEscape c.toNat
  else
    unitEscape (0xD800 + (c.toNat - 0x10000) / 0x400) ++
      unitEscape (0xDC00 + (c.toNat - 0x10000) % 0x400)

/-- The characters of a text as a string. -/
def stringChars (cs : List Char) : List Char := '"' :: cs.flatMap escapeChar ++ ['"']

def string (s : String) : String := String.ofList (stringChars s.toList)

/-- A number with a fraction, or the name of a special number. -/
def real : Binary64 → String
  | .nan => "NaN"
  | .infinity negative => if negative then "-Infinity" else "Infinity"
  | x => x.text

def keyText : Key → String
  | .null => "null"
  | .bool b => if b then "true" else "false"
  | .real x => real x
  | .text s => s
  | .moment m => m.text
  | k => k.literal

/-- A datum that holds no other data. -/
def scalar : Datum → String
  | .null => "null"
  | .bool b => if b then "true" else "false"
  | .real x => real x
  | .text s => string s
  | .moment m => string m.text
  | d => d.literal

mutual

/-- The text of a datum in one line. -/
def compact : Datum → String
  | .list items => "[" ++ ", ".intercalate (compactItems items) ++ "]"
  | .map entries => "\x7b" ++ ", ".intercalate (compactEntries entries) ++ "\x7d"
  | d => scalar d

def compactItems : List Datum → List String
  | [] => []
  | d :: rest => compact d :: compactItems rest

def compactEntries : List (Key × Datum) → List String
  | [] => []
  | (k, d) :: rest => (string (keyText k) ++ ": " ++ compact d) :: compactEntries rest

end

/-- A line break and the indentation of a depth. -/
def newline (depth : Nat) : String := String.ofList ('\n' :: List.replicate (2 * depth) ' ')

/-- Items between brackets, one in a line; without items the brackets stand together. -/
def enclose (opener closer : String) (depth : Nat) (items : List String) : String :=
  if items.isEmpty then opener ++ closer
  else
    opener ++ newline (depth + 1) ++ ("," ++ newline (depth + 1)).intercalate items ++
      newline depth ++ closer

mutual

/-- The text of a datum over several lines, at a depth of indentation. -/
def indented (depth : Nat) : Datum → String
  | .list items => enclose "[" "]" depth (indentedItems (depth + 1) items)
  | .map entries => enclose "\x7b" "\x7d" depth (indentedEntries (depth + 1) entries)
  | d => scalar d

def indentedItems (depth : Nat) : List Datum → List String
  | [] => []
  | d :: rest => indented depth d :: indentedItems depth rest

def indentedEntries (depth : Nat) : List (Key × Datum) → List String
  | [] => []
  | (k, d) :: rest =>
    (string (keyText k) ++ ": " ++ indented depth d) :: indentedEntries depth rest

end

/-- The text of a datum over several lines. -/
def pretty (d : Datum) : String := indented 0 d

def isSpace (c : Char) : Bool := c == ' ' || c == '\t' || c == '\n' || c == '\r'

def skipSpace (cs : List Char) : List Char := cs.dropWhile isSpace

def hexValue? (c : Char) : Option Nat :=
  if c.isDigit then some (c.toNat - 48)
  else if 'a' ≤ c && c ≤ 'f' then some (c.toNat - 87)
  else if 'A' ≤ c && c ≤ 'F' then some (c.toNat - 55)
  else none

/-- Four hexadecimal digits as a 16-bit unit. -/
def unitValue? (a b c d : Char) : Option Nat :=
  match hexValue? a, hexValue? b, hexValue? c, hexValue? d with
  | some a, some b, some c, some d => some (((a * 16 + b) * 16 + c) * 16 + d)
  | _, _, _, _ => none

/-- The character that two 16-bit units stand for together. -/
def joinUnits? (high low : Nat) : Option Char :=
  if 0xD800 ≤ high && high < 0xDC00 && 0xDC00 ≤ low && low < 0xE000 then
    some (Char.ofNat (0x10000 + (high - 0xD800) * 0x400 + (low - 0xDC00)))
  else none

/-- The character of a single 16-bit unit. Half of a pair is no character, and every such half
becomes the same replacement character: keys and texts that differ in nothing but their lone halves
fall together here, where a reader that keeps lone halves would tell them apart. -/
def ofUnit (n : Nat) : Char :=
  if 0xD800 ≤ n && n < 0xE000 then Char.ofNat 0xFFFD else Char.ofNat n

def simpleEscape? (c : Char) : Option Char :=
  match c with
  | '"' => some '"'
  | '\\' => some '\\'
  | '/' => some '/'
  | 'b' => some (Char.ofNat 8)
  | 'f' => some (Char.ofNat 12)
  | 'n' => some '\n'
  | 'r' => some '\r'
  | 't' => some '\t'
  | _ => none

/-- Reads a string behind its opening quote. A control character ends the attempt. -/
def readString : List Char → Option (List Char × List Char)
  | [] => none
  | '"' :: rest => some ([], rest)
  | '\\' :: 'u' :: a :: b :: c :: d :: '\\' :: 'u' :: e :: f :: g :: h :: rest =>
    match unitValue? a b c d with
    | none => none
    | some high =>
      match (unitValue? e f g h).bind (joinUnits? high) with
      | some char => (readString rest).map fun r => (char :: r.1, r.2)
      | none =>
        (readString ('\\' :: 'u' :: e :: f :: g :: h :: rest)).map fun r =>
          (ofUnit high :: r.1, r.2)
  | '\\' :: 'u' :: a :: b :: c :: d :: rest =>
    match unitValue? a b c d with
    | none => none
    | some n => (readString rest).map fun r => (ofUnit n :: r.1, r.2)
  | '\\' :: c :: rest =>
    match simpleEscape? c with
    | some e => (readString rest).map fun r => (e :: r.1, r.2)
    | none => none
  | c :: rest => if c.toNat < 0x20 then none else (readString rest).map fun r => (c :: r.1, r.2)

/-- The number that digits spell. -/
def digitsValue (cs : List Char) : Nat := cs.foldl (fun n c => n * 10 + (c.toNat - 48)) 0

/-- More digits than this are refused in an integer. -/
def maxDigits : Nat := 4300

/-- The digits behind a point, when there are any. -/
def readFraction (cs : List Char) : Option (List Char × List Char) :=
  match cs with
  | '.' :: rest =>
    let digits := rest.takeWhile Char.isDigit
    if digits.isEmpty then none else some (digits, rest.dropWhile Char.isDigit)
  | _ => none

/-- The power of ten behind an `e`, when there is one. -/
def readPower (cs : List Char) : Option (Int × List Char) :=
  match cs with
  | e :: rest =>
    if e == 'e' || e == 'E' then
      let signed := match rest with
        | '-' :: tail => (true, tail)
        | '+' :: tail => (false, tail)
        | tail => (false, tail)
      let digits := signed.2.takeWhile Char.isDigit
      if digits.isEmpty then none
      else
        let n : Int := digitsValue digits
        some (if signed.1 then -n else n, signed.2.dropWhile Char.isDigit)
    else none
  | [] => none

/-- Reads a number behind its sign: an integer unless a fraction or a power of ten follows. -/
def readNumber (negative : Bool) (cs : List Char) : Option (Datum × List Char) :=
  let digits := if cs.head? == some '0' then ['0'] else cs.takeWhile Char.isDigit
  let rest := cs.drop digits.length
  if digits.isEmpty then none
  else
    let fraction := readFraction rest
    let behind := (fraction.map Prod.snd).getD rest
    let power := readPower behind
    if fraction.isNone && power.isNone then
      if digits.length > maxDigits then none
      else
        let n : Int := digitsValue digits
        some (.int (if negative then -n else n), rest)
    else
      let places := (fraction.map Prod.fst).getD []
      let e := (power.map Prod.fst).getD 0 - places.length
      some (.real (.ofDecimal negative (digitsValue (digits ++ places)) e),
        (power.map Prod.snd).getD behind)

/-- The words that stand for data. -/
def constants : List (String × Datum) :=
  [("null", .null), ("true", .bool true), ("false", .bool false), ("NaN", .real .nan),
   ("Infinity", .real (.infinity false)), ("-Infinity", .real (.infinity true))]

def readConstant (cs : List Char) : Option (Datum × List Char) :=
  constants.findSome? fun entry => (Text.behind? entry.1.toList cs).map fun rest => (entry.2, rest)

mutual

/-- Reads a datum at the front of a text. -/
def readDatum : Nat → List Char → Option (Datum × List Char)
  | 0, _ => none
  | fuel + 1, cs =>
    match cs with
    | '"' :: rest => (readString rest).map fun r => (.text (String.ofList r.1), r.2)
    | '[' :: rest =>
      match skipSpace rest with
      | ']' :: behind => some (.list [], behind)
      | inner => (readItems fuel inner).map fun r => (.list r.1, r.2)
    | '{' :: rest =>
      match skipSpace rest with
      | '}' :: behind => some (.map [], behind)
      | inner =>
        (readMembers fuel inner).map fun r =>
          (.map (r.1.foldl (fun entries m => Datum.insert entries m.1 m.2) []), r.2)
    | _ =>
      match readConstant cs with
      | some r => some r
      | none =>
        match cs with
        | '-' :: rest => readNumber true rest
        | _ => readNumber false cs

/-- Reads the items of a list up to its closing bracket. -/
def readItems : Nat → List Char → Option (List Datum × List Char)
  | 0, _ => none
  | fuel + 1, cs =>
    match readDatum fuel cs with
    | none => none
    | some (d, rest) =>
      match skipSpace rest with
      | ']' :: behind => some ([d], behind)
      | ',' :: more => (readItems fuel (skipSpace more)).map fun r => (d :: r.1, r.2)
      | _ => none

/-- Reads the members of a mapping up to its closing brace. -/
def readMembers : Nat → List Char → Option (List (Key × Datum) × List Char)
  | 0, _ => none
  | fuel + 1, cs =>
    match cs with
    | '"' :: rest =>
      match readString rest with
      | none => none
      | some (key, rest) =>
        match skipSpace rest with
        | ':' :: rest =>
          match readDatum fuel (skipSpace rest) with
          | none => none
          | some (d, rest) =>
            let entry := (Key.text (String.ofList key), d)
            match skipSpace rest with
            | '}' :: behind => some ([entry], behind)
            | ',' :: more => (readMembers fuel (skipSpace more)).map fun r => (entry :: r.1, r.2)
            | _ => none
        | _ => none
    | _ => none

end

/-- Reads a whole text as one datum. -/
def read? (cs : List Char) : Option Datum :=
  match readDatum (cs.length + 1) (skipSpace cs) with
  | some (d, rest) => if (skipSpace rest).isEmpty then some d else none
  | none => none

end FlowMachine.Json
