import FlowMachine.Datum
import FlowMachine.Datum.Yaml.Fault
import FlowMachine.Datum.Yaml.Scalar
import FlowMachine.Number.Numeral
import FlowMachine.Text.Casing

/-!
# Values of scalars

The datum of a scalar, given what it is. A scalar that is marked by hand need not have the form of
what it is marked as, and then its fault is told.
-/
namespace FlowMachine.Yaml

def dropUnderscores (cs : List Char) : List Char := cs.filter (· != '_')

/-- The value of a digit of any script, or of a letter as a further digit. -/
def anyDigit? (c : Char) : Option Nat :=
  match Numeral.digit? c with
  | some d => some d
  | none => Json.hexValue? c

/-- What stands behind the mark of a base, if it is there. -/
def dropBaseMark (base : Nat) (cs : List Char) : List Char :=
  match cs with
  | '0' :: c :: rest =>
    if (base, c.toLower) ∈ [(2, 'b'), (8, 'o'), (16, 'x')] then rest else cs
  | _ => cs

/-- The text without the blanks around it. -/
def withoutMargins (cs : List Char) : List Char :=
  Text.dropEndWhile Numeral.isMargin (cs.dropWhile Numeral.isMargin)

/-- A minus stands in front. -/
def isNegative (cs : List Char) : Bool := cs.head? == some '-'

def withSign (negative : Bool) (n : Int) : Int := if negative then -n else n

/-- Reads an integer in a base. -/
def integerIn (base : Nat) (cs : List Char) : Except ValueFault Int :=
  let body := withoutMargins cs
  let digits := (dropBaseMark base (unsigned body)).mapM fun c => (anyDigit? c).filter (· < base)
  match digits with
  | none => .error (.notInteger base (String.ofList cs))
  | some [] => .error (.notInteger base (String.ofList cs))
  | some digits =>
    if base == 10 && Numeral.maxDigits < digits.length then .error (.tooManyDigits digits.length)
    else .ok (withSign (isNegative body) (digits.foldl (fun n d => n * base + d) 0 : Nat))

/-- The integer of a scalar. Places of sixty stand between colons. -/
def integerOf (s : String) : Except ValueFault Int :=
  let cs := dropUnderscores s.toList
  let body := unsigned cs
  let magnitude : Except ValueFault Int :=
    match body with
    | [] => .error .noDigits
    | ['0'] => .ok 0
    | '0' :: 'b' :: rest => integerIn 2 rest
    | '0' :: 'x' :: rest => integerIn 16 rest
    | '0' :: _ => integerIn 8 body
    | _ => do
      return (← (splitColons body).mapM (integerIn 10)).foldl (fun n place => n * 60 + place) 0
  magnitude.map (withSign (isNegative cs))

/-- Reads a power of ten behind a number. -/
def powerOf? (cs : List Char) : Option Int :=
  match cs with
  | [] => some 0
  | 'e' :: rest =>
    match (unsigned rest).mapM Numeral.digit? with
    | none => none
    | some [] => none
    | some digits => some (withSign (isNegative rest) (Numeral.value digits : Nat))
  | _ => none

/-- Reads a real number in small letters. -/
def realText? (cs : List Char) : Option Binary64 :=
  let cs := withoutMargins cs
  let negative := isNegative cs
  let body := unsigned cs
  if ["inf", "infinity"].contains (String.ofList body) then some (.infinity negative)
  else if String.ofList body == "nan" then some .nan
  else
    let isDigit (c : Char) : Bool := (Numeral.digit? c).isSome
    let whole := body.takeWhile isDigit
    let behind := body.dropWhile isDigit
    let (places, behind) := match behind with
      | '.' :: rest => (rest.takeWhile isDigit, rest.dropWhile isDigit)
      | _ => ([], behind)
    if whole.isEmpty && places.isEmpty then none
    else
      (powerOf? behind).map fun power =>
        .ofDecimal negative (Numeral.value ((whole ++ places).filterMap Numeral.digit?))
          (power - places.length)

def realIn (cs : List Char) : Except ValueFault Binary64 :=
  match realText? cs with
  | some x => .ok x
  | none => .error (.notReal (String.ofList cs))

/-- The sum of places of sixty, the last of which comes first: each sum and each product is
rounded. -/
def sumSixties (places : List Binary64) : Binary64 :=
  (places.foldl (fun (sum, base) place => (sum.add (place.scale base), base * 60))
    (Binary64.ofRatio 0 1, 1)).1

/-- The real number of a scalar. -/
def realOf (s : String) : Except ValueFault Binary64 :=
  let cs := Text.lowerChars (dropUnderscores s.toList)
  let body := unsigned cs
  let magnitude : Except ValueFault Binary64 :=
    if cs.isEmpty then .error .noDigits
    else if String.ofList body == ".inf" then .ok (.infinity false)
    else if String.ofList body == ".nan" then .ok .nan
    else if body.contains ':' then do
      return sumSixties (← (splitColons body).mapM realIn).reverse
    else realIn body
  magnitude.map fun x => if isNegative cs then x.neg else x

/-- The truth value of a scalar, in any case. -/
def truthOf (s : String) : Except ValueFault Bool :=
  let word := Text.lower s
  if truths.contains word then .ok true
  else if falsehoods.contains word then .ok false
  else .error (.noTruth word)

/-- The moment of a scalar. -/
def momentOf (s : String) : Except ValueFault Moment :=
  match readMoment (withoutBreak s) with
  | none => .error .notMoment
  | some parts =>
    let moment := match parts.clock with
      | none => (Date.make parts.year parts.month parts.day).map Moment.day
      | some clock => Moment.make parts.year parts.month parts.day clock
    match moment with
    | .ok m => .ok m
    | .error cause => .error (.moment cause)

/-- The datum of a scalar. -/
def scalarOf (tag : Tag) (s : String) : Except Fault Datum :=
  let value (d : Except ValueFault Datum) : Except Fault Datum := d.mapError .value
  match tag with
  | .null => .ok .null
  | .text => .ok (.text s)
  | .bool => value ((truthOf s).map .bool)
  | .int => value ((integerOf s).map .int)
  | .real => value ((realOf s).map .real)
  | .moment => value ((momentOf s).map .moment)
  | _ => .error .malformed

end FlowMachine.Yaml
