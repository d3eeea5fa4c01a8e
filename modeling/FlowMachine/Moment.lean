/-!
# Dates and times

A moment is a day of the calendar, or a time of a day. A time may say how far its clock is from
Greenwich; two such times are the same when they name one instant.
-/
namespace FlowMachine

/-- A number with zeros in front up to a width. -/
def padded (width n : Nat) : String :=
  let digits := Nat.toDigits 10 n
  String.ofList (List.replicate (width - digits.length) '0' ++ digits)

/-- A day of the calendar. -/
structure Date where
  year : Int
  month : Nat
  day : Nat
deriving DecidableEq, Repr

/-- A time of a day, with the minutes by which its clock is ahead of Greenwich if they are known. -/
structure Clock where
  hour : Nat
  minute : Nat
  second : Nat
  micro : Nat := 0
  ahead : Option Int := none
deriving DecidableEq, Repr

inductive Moment where
  | day (date : Date)
  | time (date : Date) (clock : Clock)
deriving DecidableEq, Repr

/-- Why numbers name no moment. -/
inductive MomentFault where
  | year (n : Int)
  | month
  | day
  | hour
  | minute
  | second
  /-- A clock differs from Greenwich by a day or more. -/
  | ahead (minutes : Int)
deriving DecidableEq, Repr

namespace Date

/-- The date of a day counted from 1 January 1970. Years are counted from March, so that a leap day
is the last one, in eras of 400 years. -/
def ofDay (days : Int) : Date :=
  let shifted := days + 719468
  let era := shifted.fdiv 146097
  let dayOfEra := (shifted - era * 146097).toNat
  let yearOfEra := (dayOfEra - dayOfEra / 1460 + dayOfEra / 36524 - dayOfEra / 146096) / 365
  let dayOfYear := dayOfEra - (365 * yearOfEra + yearOfEra / 4 - yearOfEra / 100)
  let m := (5 * dayOfYear + 2) / 153
  let month := if m < 10 then m + 3 else m - 9
  let year := era * 400 + yearOfEra + if month ≤ 2 then 1 else 0
  ⟨year, month, dayOfYear - (153 * m + 2) / 5 + 1⟩

/-- The days from 1 January 1970 to a date. -/
def toDay (d : Date) : Int :=
  let year := if d.month ≤ 2 then d.year - 1 else d.year
  let era := year.fdiv 400
  let yearOfEra := (year - era * 400).toNat
  let m := if d.month ≤ 2 then d.month + 9 else d.month - 3
  let dayOfYear := (153 * m + 2) / 5 + d.day - 1
  era * 146097 + (yearOfEra * 365 + yearOfEra / 4 - yearOfEra / 100 + dayOfYear : Nat) - 719468

def isLeap (year : Int) : Bool :=
  year % 4 == 0 && (year % 100 != 0 || year % 400 == 0)

def daysIn (year : Int) (month : Nat) : Nat :=
  if month == 2 then (if isLeap year then 29 else 28)
  else if [4, 6, 9, 11].contains month then 30
  else 31

/-- The date that three numbers name. -/
def make (year : Int) (month day : Nat) : Except MomentFault Date :=
  if year < 1 || 9999 < year then .error (.year year)
  else if month < 1 || 12 < month then .error .month
  else if day < 1 || daysIn year month < day then .error .day
  else .ok ⟨year, month, day⟩

def text (d : Date) : String :=
  padded 4 d.year.toNat ++ "-" ++ padded 2 d.month ++ "-" ++ padded 2 d.day

end Date

/-- The literal of a time span in minutes: whole days, and seconds that are never negative. -/
def spanLiteral (minutes : Int) : String :=
  let days := minutes.fdiv 1440
  let seconds := (minutes - days * 1440) * 60
  let parts := (if days == 0 then [] else [s!"days={days}"]) ++
    (if seconds == 0 then [] else [s!"seconds={seconds}"])
  "datetime.timedelta(" ++ (if parts.isEmpty then "0" else ", ".intercalate parts) ++ ")"

namespace Clock

/-- A time that a clock can show. -/
def check (c : Clock) : Except MomentFault Clock :=
  if 23 < c.hour then .error .hour
  else if 59 < c.minute then .error .minute
  else if 59 < c.second then .error .second
  else .ok c

/-- The distance from Greenwich in hours and minutes. -/
def aheadText (minutes : Int) : String :=
  (if minutes < 0 then "-" else "+") ++ padded 2 (minutes.natAbs / 60) ++ ":" ++
    padded 2 (minutes.natAbs % 60)

def text (c : Clock) : String :=
  padded 2 c.hour ++ ":" ++ padded 2 c.minute ++ ":" ++ padded 2 c.second ++
    (if c.micro == 0 then "" else "." ++ padded 6 c.micro) ++ (c.ahead.map aheadText).getD ""

/-- The numbers of a literal: seconds are left out when they are zero. -/
def literalParts (c : Clock) : List String :=
  let fine := if c.micro != 0 then [toString c.second, toString c.micro]
    else if c.second != 0 then [toString c.second]
    else []
  let zone := match c.ahead with
    | none => []
    | some 0 => ["tzinfo=datetime.timezone.utc"]
    | some minutes => ["tzinfo=datetime.timezone(" ++ spanLiteral minutes ++ ")"]
  [toString c.hour, toString c.minute] ++ fine ++ zone

/-- The microseconds since midnight, by the clock itself. -/
def micros (c : Clock) : Int :=
  ((c.hour * 60 + c.minute) * 60 + c.second) * 1000000 + c.micro

end Clock

namespace MomentFault

def message : MomentFault → String
  | .year n => s!"year {n} is out of range"
  | .month => "month must be in 1..12"
  | .day => "day is out of range for month"
  | .hour => "hour must be in 0..23"
  | .minute => "minute must be in 0..59"
  | .second => "second must be in 0..59"
  | .ahead minutes =>
    "offset must be a timedelta strictly between -timedelta(hours=24) and timedelta(hours=24), not "
      ++ spanLiteral minutes ++ "."

end MomentFault

namespace Moment

/-- The time that a date and a clock name. The distance of the clock is looked at first. -/
def make (year : Int) (month day : Nat) (clock : Clock) : Except MomentFault Moment := do
  match clock.ahead with
  | some minutes => if 1440 ≤ minutes.natAbs then throw (.ahead minutes)
  | none => pure ()
  return .time (← Date.make year month day) (← clock.check)

/-- The name of the kind. -/
def kindName : Moment → String
  | .day _ => "date"
  | .time _ _ => "datetime"

def text : Moment → String
  | .day d => d.text
  | .time d c => d.text ++ " " ++ c.text

def literal : Moment → String
  | .day d => s!"datetime.date({d.year}, {d.month}, {d.day})"
  | .time d c =>
    s!"datetime.datetime({d.year}, {d.month}, {d.day}, " ++ ", ".intercalate c.literalParts ++ ")"

/-- The microseconds from 1970 in Greenwich, if the distance from there is known. -/
def instant? : Moment → Option Int
  | .day _ => none
  | .time d c =>
    c.ahead.map fun minutes => d.toDay * 86400000000 + c.micros - minutes * 60000000

/-- Two moments are the same by what they say, or by their instant if both have one. -/
def same (a b : Moment) : Bool :=
  match a.instant?, b.instant? with
  | some i, some j => i == j
  | _, _ => a == b

end Moment

end FlowMachine
