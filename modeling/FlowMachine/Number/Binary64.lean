/-!
# Binary floating-point numbers

Numbers of 53 binary digits, as exact integers `mantissa * 2 ^ exponent`. A decimal is rounded to
the nearest of them, ties to an even mantissa, and a number is written with the fewest decimal
digits that read back as the same number.
-/
namespace FlowMachine

inductive Binary64 where
  | finite (negative : Bool) (mantissa : Nat) (exponent : Int)
  | infinity (negative : Bool)
  | nan
deriving DecidableEq, Repr

namespace Binary64

/-- A quotient rounded to the nearest integer, ties to the even one. -/
def roundQuotient (num den : Nat) : Nat :=
  let q := num / den
  let r := num % den
  if 2 * r < den then q
  else if den < 2 * r then q + 1
  else q + q % 2

/-- The numerator and denominator of `n * base ^ e`. -/
def scaled (n base : Nat) (e : Int) : Nat × Nat :=
  if 0 ≤ e then (n * Nat.pow base e.toNat, 1) else (n, Nat.pow base (-e).toNat)

/-- The least mantissa of 53 binary digits. -/
def leastMantissa : Nat := 0x10000000000000

/-- The number nearest to a positive quotient. -/
def ofQuotient (negative : Bool) (num den : Nat) : Binary64 :=
  let guess : Int := (num.log2 : Int) - den.log2 - 52
  let fits (e : Int) : Bool :=
    let s := scaled den 2 e
    decide (leastMantissa * s.1 ≤ num * s.2)
  let exponent := max (-1074) (if fits guess then guess else guess - 1)
  let s := scaled den 2 exponent
  let mantissa := roundQuotient (num * s.2) s.1
  let carried := mantissa == 2 * leastMantissa
  let mantissa := if carried then leastMantissa else mantissa
  let exponent := if carried then exponent + 1 else exponent
  if exponent > 971 then .infinity negative else .finite negative mantissa exponent

/-- The number nearest to `digits * 10 ^ e`. -/
def ofDecimal (negative : Bool) (digits : Nat) (e : Int) : Binary64 :=
  let size : Int := (Nat.toDigits 10 digits).length + e
  if digits == 0 || size < -400 then .finite negative 0 (-1074)
  else if size > 400 then .infinity negative
  else
    let s := scaled digits 10 e
    ofQuotient negative s.1 s.2

/-- A finite number as a fraction. -/
def ratio? : Binary64 → Option (Int × Nat)
  | .finite negative mantissa exponent =>
    let s := scaled mantissa 2 exponent
    some (if negative then -(s.1 : Int) else s.1, s.2)
  | _ => none

/-- The number nearest to a fraction. -/
def ofRatio (num : Int) (den : Nat) : Binary64 :=
  if num == 0 then .finite false 0 (-1074) else ofQuotient (decide (num < 0)) num.natAbs den

/-- The integer part of a finite number, rounded toward zero. -/
def truncate? : Binary64 → Option Int
  | .finite negative mantissa exponent =>
    let s := scaled mantissa 2 exponent
    let n : Int := (s.1 / s.2 : Nat)
    some (if negative then -n else n)
  | _ => none

/-- The greatest integer that is not greater than a finite number. -/
def floor? : Binary64 → Option Int
  | .finite negative mantissa exponent =>
    let s := scaled mantissa 2 exponent
    let n : Int := s.1
    some ((if negative then -n else n).fdiv s.2)
  | _ => none

def isZero : Binary64 → Bool
  | .finite _ 0 _ => true
  | _ => false

/-- The sum of two numbers, rounded. -/
def add (a b : Binary64) : Binary64 :=
  match a.ratio?, b.ratio? with
  | some x, some y => ofRatio (x.1 * y.2 + y.1 * x.2) (x.2 * y.2)
  | some _, none => b
  | none, some _ => a
  | none, none => if a == b then a else .nan

/-- The number with its sign turned. -/
def neg : Binary64 → Binary64
  | .finite negative mantissa exponent => .finite (!negative) mantissa exponent
  | .infinity negative => .infinity (!negative)
  | .nan => .nan

/-- The product of a number and a positive integer, rounded. -/
def scale (a : Binary64) (n : Nat) : Binary64 :=
  match a.ratio?, (ofRatio n 1).ratio? with
  | some x, some y => ofRatio (x.1 * y.1) (x.2 * y.2)
  | _, _ => a

/-- A decimal `digits * 10 ^ exponent`. -/
structure Decimal where
  digits : Nat
  exponent : Int
deriving DecidableEq, Repr

/-- Compares a decimal with `n * 2 ^ e`. -/
def Decimal.compareTo (d : Decimal) (n : Nat) (e : Int) : Ordering :=
  let a := scaled d.digits 10 d.exponent
  let b := scaled n 2 e
  compare (a.1 * b.2) (b.1 * a.2)

/-- The decimal lies among the reals that are rounded to the number. -/
def readsBack (mantissa : Nat) (exponent : Int) (d : Decimal) : Bool :=
  let narrow := mantissa == leastMantissa && exponent > -1074
  let low := d.compareTo (if narrow then 4 * mantissa - 1 else 4 * mantissa - 2) (exponent - 2)
  let high := d.compareTo (4 * mantissa + 2) (exponent - 2)
  let closed := mantissa % 2 == 0
  (low == .gt || (closed && low == .eq)) && (high == .lt || (closed && high == .eq))

/-- The least power of ten above a positive number, found near a first guess. -/
def decimalScale (mantissa : Nat) (exponent : Int) : Int :=
  let s := scaled mantissa 2 exponent
  let guess : Int := (Nat.toDigits 10 s.1).length - ((Nat.toDigits 10 s.2).length : Int)
  let below (k : Int) : Bool := Decimal.compareTo ⟨1, k⟩ mantissa exponent == .gt
  if below (guess - 1) then guess - 1 else if below guess then guess else guess + 1

/-- Of the two decimals on a grid next to the number, the nearer one that reads back. -/
def onGrid? (m : Nat) (exponent grid : Int) : Option Decimal :=
  let s := scaled m 2 exponent
  let g := scaled 1 10 grid
  let num := s.1 * g.2
  let den := s.2 * g.1
  let low : Decimal := ⟨num / den, grid⟩
  let high : Decimal := ⟨num / den + 1, grid⟩
  let lowReads := readsBack m exponent low
  let highReads := readsBack m exponent high
  if lowReads && highReads then some ⟨roundQuotient num den, grid⟩
  else if lowReads then some low
  else if highReads then some high
  else none

/-- The shortest decimal that reads back as a positive number. -/
def shortest (mantissa : Nat) (exponent : Int) : Decimal :=
  let scale := decimalScale mantissa exponent
  ((List.range 17).findSome? fun (n : Nat) => onGrid? mantissa exponent (scale - (n + 1))).getD
    ⟨mantissa, 0⟩

/-- Moves trailing zeros of the digits into the exponent. -/
def Decimal.strip (d : Decimal) : Nat → Decimal
  | 0 => d
  | fuel + 1 =>
    if d.digits != 0 && d.digits % 10 == 0 then Decimal.strip ⟨d.digits / 10, d.exponent + 1⟩ fuel
    else d

/-- Digits with a point behind the first `point` of them, and a zero on an empty side. -/
def positional (digits : List Char) (point : Int) : List Char :=
  let n : Int := digits.length
  if point ≤ 0 then '0' :: '.' :: List.replicate (-point).toNat '0' ++ digits
  else if n ≤ point then digits ++ List.replicate (point - n).toNat '0' ++ ['.', '0']
  else digits.take point.toNat ++ '.' :: digits.drop point.toNat

/-- Digits with a power of ten of at least two digits behind them. -/
def scientific (digits : List Char) (power : Int) : List Char :=
  let lead := match digits with
    | [] => []
    | [d] => [d]
    | d :: rest => d :: '.' :: rest
  let size := (toString power.natAbs).toList
  lead ++ 'e' :: (if power < 0 then '-' else '+') ::
    (List.replicate (2 - size.length) '0' ++ size)

/-- The text of a number: positional for powers of ten from -4 to 15, scientific beyond. -/
def text : Binary64 → String
  | .nan => "nan"
  | .infinity negative => if negative then "-inf" else "inf"
  | .finite negative mantissa exponent =>
    let sign := if negative then "-" else ""
    if mantissa == 0 then sign ++ "0.0"
    else
      let d := (shortest mantissa exponent).strip 400
      let digits := Nat.toDigits 10 d.digits
      let point : Int := digits.length + d.exponent
      let body := if -4 < point && point ≤ 16 then positional digits point
        else scientific digits (point - 1)
      sign ++ String.ofList body

end Binary64

end FlowMachine
