import FlowMachine.Datum
import FlowMachine.Datum.Yaml.Fault
import FlowMachine.Text.Torn
import FlowMachine.Text.Utf8

/-!
# Faults

Everything that stops an operation instead of being reported as a finding, with its wording.
-/
namespace FlowMachine

/-- Why an operation on files is refused. -/
inductive FileError where
  | missing
  | present
  | notDirectory
  | isDirectory
  | nameTooLong
deriving DecidableEq, Repr

namespace FileError

def code : FileError → Nat
  | .missing => 2
  | .present => 17
  | .notDirectory => 20
  | .isDirectory => 21
  | .nameTooLong => 36

def text : FileError → String
  | .missing => "No such file or directory"
  | .present => "File exists"
  | .notDirectory => "Not a directory"
  | .isDirectory => "Is a directory"
  | .nameTooLong => "File name too long"

end FileError

/-- A value of the wrong kind was used; kinds are given by name. -/
inductive KindFault where
  | unordered (relation left right : String)
  | notPath (kind : String)
  | notIterable (kind : String)
  | notContainer (kind : String)
  | noLength (kind : String)
  | notText (index : Nat) (kind : String)
deriving DecidableEq, Repr

namespace KindFault

def message : KindFault → String
  | .unordered relation left right =>
    s!"'{relation}' not supported between instances of '{left}' and '{right}'"
  | .notPath kind => s!"expected str, bytes or os.PathLike object, not {kind}"
  | .notIterable kind => s!"'{kind}' object is not iterable"
  | .notContainer kind => s!"argument of type '{kind}' is not iterable"
  | .noLength kind => s!"object of type '{kind}' has no len()"
  | .notText index kind => s!"sequence item {index}: expected str instance, {kind} found"

end KindFault

/-- A setting is unusable. -/
inductive SettingsFault where
  | sectionNotMapping (name kind : String)
  | notMapping (kind : String)
  | unknownOptions (name : String) (options : List String)
  | badTestStyle (shown : String)
  | badLimits
  | noFile (path : String)
  | badYaml (path : String)
deriving DecidableEq, Repr

namespace SettingsFault

def message : SettingsFault → String
  | .sectionNotMapping name kind => s!"'{name}' must be a mapping, got {kind}"
  | .notMapping kind => s!"Configuration must be a mapping, got {kind}"
  | .unknownOptions name options =>
    s!"Unknown option(s) in '{name}': " ++ ", ".intercalate options
  | .badTestStyle shown => s!"test_style must be one of smoke, comprehensive, got '{shown}'"
  | .badLimits => "validation limits must be positive integers"
  | .noFile path => s!"Configuration file not found: {path}"
  | .badYaml path => s!"YAML parse error in {path}"

end SettingsFault

/-- A time cannot be shown. -/
inductive TimeFault where
  /-- Its seconds are beyond the floating-point numbers. -/
  | tooLarge
  /-- Its seconds do not fit into 64 bits. -/
  | beyondClock
  /-- Its years since 1900 do not fit into 32 bits. -/
  | beyondYears
  /-- Its year, or the year of the day before, is none of the calendar. -/
  | year (n : Int)
deriving DecidableEq, Repr

namespace TimeFault

def message : TimeFault → String
  | .tooLarge => "integer division result too large for a float"
  | .beyondClock => "timestamp out of range for platform time_t"
  | .beyondYears => "[Errno 75] Value too large for defined data type"
  | .year n => s!"year {n} is out of range"

end TimeFault

inductive Fault where
  | settings (cause : SettingsFault)
  | kind (cause : KindFault)
  | unreadable (path reason : String)
  | notRendered (document machineId reason : String)
  /-- A word names none of the values of a closed set. -/
  | notMember (value set : String)
  | nulInModule
  | nulInModulePath
  | nulInPath
  | infiniteNumber
  | time (cause : TimeFault)
  /-- A scalar of a settings file cannot be what it is marked as. -/
  | scalar (cause : Yaml.ValueFault)
  /-- The bytes of a file are no text. -/
  | undecodable (flaw : Text.Utf8Flaw)
  /-- A text has no bytes in the encoding of a file. -/
  | unencodable (flaw : Text.EncodeFlaw)
  | file (error : FileError) (path : String)
deriving DecidableEq, Repr

namespace Fault

def message : Fault → String
  | .settings cause => cause.message
  | .kind cause => cause.message
  | .unreadable path reason => s!"Cannot read diagram source {path}: {reason}"
  | .notRendered document machineId reason =>
    s!"{document} emitter failed for {machineId}: {reason}"
  | .notMember value set => s!"{value} is not a valid {set}"
  | .nulInModule => "source code string cannot contain null bytes"
  | .nulInModulePath => "embedded null character"
  | .nulInPath => "embedded null byte"
  | .infiniteNumber => "cannot convert float infinity to integer"
  | .time cause => cause.message
  | .scalar cause => cause.message
  | .undecodable flaw => flaw.message
  | .unencodable flaw => flaw.message
  | .file error path => s!"[Errno {error.code}] {error.text}: {Text.literal path}"

end Fault

end FlowMachine
