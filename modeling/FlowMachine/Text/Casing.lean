import FlowMachine.Text.CaseTable
import FlowMachine.Text.CasedTable

/-!
# Upper and lower case

The full case forms: one character may become several, and a capital sigma at the end of a word
becomes the final small sigma.
-/
namespace FlowMachine.Text

/-- The image of a code point under the first run that holds it, or the code point itself. -/
def CaseRun.imageOf (runs : List CaseRun) (n : Nat) : Nat :=
  match runs.find? fun r =>
    decide (r.first ≤ n) && decide (n ≤ r.last) && (n - r.first) % r.stride == 0 with
  | some r => r.image + (n - r.first)
  | none => n

/-- The upper-case form of one character. -/
def upperChar (c : Char) : List Char :=
  if c.toNat < 0x80 then [c.toUpper]
  else
    match upperExpansions.lookup c.toNat with
    | some image => image.map Char.ofNat
    | none => [Char.ofNat (CaseRun.imageOf upperRuns c.toNat)]

def upperChars (cs : List Char) : List Char := cs.flatMap upperChar

/-- The lower-case form of one character, whatever surrounds it. -/
def lowerChar (c : Char) : List Char :=
  if c.toNat < 0x80 then [c.toLower]
  else if c.toNat == 0x130 then ['i', Char.ofNat 0x307]
  else [Char.ofNat (CaseRun.imageOf lowerRuns c.toNat)]

/-- The nearest character that is not looked through has case. -/
def meetsCased (cs : List Char) : Bool :=
  match cs.dropWhile fun c => transparentIntervals.holds c.toNat with
  | [] => false
  | c :: _ => casedIntervals.holds c.toNat

/-- Lower case of a text, where `seen` is what came before it, last character first. -/
def lowerAfter (seen : List Char) : List Char → List Char
  | [] => []
  | c :: cs =>
    (if c.toNat == 0x3A3 then
      [if meetsCased seen && !meetsCased cs then Char.ofNat 0x3C2 else Char.ofNat 0x3C3]
    else lowerChar c) ++ lowerAfter (c :: seen) cs

def lowerChars (cs : List Char) : List Char := lowerAfter [] cs

/-- The text in upper case. -/
def upper (s : String) : String := String.ofList (upperChars s.toList)

/-- The text in lower case. -/
def lower (s : String) : String := String.ofList (lowerChars s.toList)

end FlowMachine.Text
