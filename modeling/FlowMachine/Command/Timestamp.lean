import FlowMachine.Fault
import FlowMachine.Moment
import FlowMachine.Number.Binary64

/-!
# Points of time

A time in milliseconds since 1970 as a date with the time of day, and with six places of a second
when it is not a whole one.
-/
namespace FlowMachine.Command.Timestamp

/-- The microseconds of a time in milliseconds, whose seconds are held as a binary number. -/
def microseconds? (milliseconds : Int) : Option Int :=
  if milliseconds == 0 then some 0
  else
    match Binary64.ofQuotient (milliseconds < 0) milliseconds.natAbs 1000 with
    | .finite negative mantissa exponent =>
      let s := Binary64.scaled mantissa 2 exponent
      let whole := s.1 / s.2
      let micro := Binary64.roundQuotient ((s.1 % s.2) * 1000000) s.2
      let total : Int := (whole * 1000000 + micro : Nat)
      some (if negative then -total else total)
    | _ => none

def secondsPerDay : Int := 86400

/-- The number fits into a word of so many bits, one of them for the sign. -/
def fits (bits : Nat) (n : Int) : Bool :=
  let bound : Int := (Nat.pow 2 (bits - 1) : Nat)
  decide (-bound ≤ n) && decide (n < bound)

/-- The year of a day, which has to be one of the calendar. Years are counted in 32 bits. -/
def checkYear (days : Int) : Except TimeFault Unit :=
  let year := (Date.ofDay days).year
  if !fits 32 (year - 1900) then .error .beyondYears
  else if year < 1 || 9999 < year then .error (.year (Int.bmod year 0x100000000))
  else .ok ()

/-- The text of a time. The day before has to be in the calendar as well. -/
def text (milliseconds : Int) : Except TimeFault String :=
  match microseconds? milliseconds with
  | none => .error .tooLarge
  | some total => do
    let seconds := total.fdiv 1000000
    let micro := (total - seconds * 1000000).toNat
    let days := seconds.fdiv secondsPerDay
    let time := (seconds - days * secondsPerDay).toNat
    let date := Date.ofDay days
    if !fits 64 seconds then throw .beyondClock
    checkYear days
    checkYear (days - 1)
    let clock : Clock := ⟨time / 3600, time / 60 % 60, time % 60, micro, none⟩
    return date.text ++ "T" ++ clock.text

end FlowMachine.Command.Timestamp
