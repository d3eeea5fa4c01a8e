import FlowMachine.Text.Casing

/-!
# Findings

What reading, linting and building report: a message with its severity, and where they are known the
line, a hint and the kind of problem. A report keeps errors and warnings apart, each in the order in
which they were found.
-/
namespace FlowMachine

inductive Severity where
  | error
  | warning
deriving DecidableEq, Repr

namespace Severity

def name : Severity → String
  | .error => "error"
  | .warning => "warning"

def ofName? : String → Option Severity
  | "error" => some .error
  | "warning" => some .warning
  | _ => none

end Severity

structure Finding where
  message : String
  severity : Severity := .warning
  line : Option Int := none
  suggestion : Option String := none
  category : String := ""
deriving DecidableEq, Repr

namespace Finding

def error (message category : String) (line : Option Int) (suggestion : Option String) : Finding :=
  ⟨message, .error, line, suggestion, category⟩

def warning (message category : String) (line : Option Int) (suggestion : Option String) :
    Finding :=
  ⟨message, .warning, line, suggestion, category⟩

def isError (f : Finding) : Bool := f.severity == .error

/-- The finding with a text in front of its message. -/
def under (label : String) (f : Finding) : Finding :=
  { f with message := label ++ ": " ++ f.message }

/-- One line for a reader: the severity in capitals, the line if known, and the message. -/
def text (f : Finding) : String :=
  let place := match f.line with
    | some n => s!"line {n}: "
    | none => ""
  s!"[{Text.upper f.severity.name}] {place}{f.message}"

end Finding

/-- The errors among findings, in order. -/
def errorsOf (fs : List Finding) : List Finding := fs.filter (·.severity == .error)

/-- The warnings among findings, in order. -/
def warningsOf (fs : List Finding) : List Finding := fs.filter (·.severity == .warning)

/-- The findings about one source or one batch, errors and warnings apart. -/
structure Report where
  source : String := ""
  errors : List Finding := []
  warnings : List Finding := []
deriving DecidableEq, Repr

namespace Report

def isValid (r : Report) : Bool := r.errors.isEmpty

/-- Files a finding by its severity. -/
def add (r : Report) (f : Finding) : Report :=
  match f.severity with
  | .error => { r with errors := r.errors ++ [f] }
  | .warning => { r with warnings := r.warnings ++ [f] }

/-- Appends the findings of another report; the source stays. -/
def merge (r other : Report) : Report :=
  { r with errors := r.errors ++ other.errors, warnings := r.warnings ++ other.warnings }

/-- The report on a source that files findings in order. -/
def ofFindings (source : String) (fs : List Finding) : Report :=
  ⟨source, errorsOf fs, warningsOf fs⟩

/-- All findings, errors first. -/
def findings (r : Report) : List Finding := r.errors ++ r.warnings

def total (r : Report) : Nat := r.errors.length + r.warnings.length

end Report

end FlowMachine
