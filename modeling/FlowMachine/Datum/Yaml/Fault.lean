import FlowMachine.Moment
import FlowMachine.Text.Quoted

/-!
# Faults of a YAML text

A text can be malformed, or a scalar in it cannot be what it is marked as. The second kind of fault
says what was wrong with the scalar.
-/
namespace FlowMachine.Yaml

/-- A scalar cannot be what it is marked as. -/
inductive ValueFault where
  /-- A word is no truth value. -/
  | noTruth (word : String)
  /-- Nothing is left of a number without its underscores and its sign. -/
  | noDigits
  | notInteger (base : Nat) (text : String)
  | tooManyDigits (count : Nat)
  | notReal (text : String)
  /-- A text does not have the form of a moment. -/
  | notMoment
  | moment (cause : MomentFault)
  /-- An escape names no character. -/
  | noCharacter (code : Nat)
deriving DecidableEq, Repr

namespace ValueFault

/-- A literal is cut off behind this many characters. -/
def maxLiteral : Nat := 200

def message : ValueFault → String
  | .noTruth word => Text.literal word
  | .noDigits => "string index out of range"
  | .notInteger base text =>
    let shown := String.ofList ((Text.literal text).toList.take maxLiteral)
    s!"invalid literal for int() with base {base}: {shown}"
  | .tooManyDigits count =>
    s!"Exceeds the limit (4300 digits) for integer string conversion: value has {count} digits; " ++
      "use sys.set_int_max_str_digits() to increase the limit"
  | .notReal text => "could not convert string to float: " ++ Text.literal text
  | .notMoment => "'NoneType' object has no attribute 'groupdict'"
  | .moment cause => cause.message
  | .noCharacter code =>
    if code < 0x80000000 then "chr() arg not in range(0x110000)"
    else "Python int too large to convert to C int"

end ValueFault

inductive Fault where
  | malformed
  | value (cause : ValueFault)
deriving DecidableEq, Repr

end FlowMachine.Yaml
