import FlowMachine.Audit
import FlowMachine.Command.Exit
import FlowMachine.Diagram.File
import FlowMachine.Lint.File

/-!
# The validation command

`statemachine-codegen-validate` lints diagram files, and audits the machines of those that are
without errors. Warnings fail the command only when it is strict, but they are counted even when
they are not shown.
-/
namespace FlowMachine.Command.Validate

def grammar : Grammar where
  program := "statemachine-codegen-validate"
  help := [
    "usage: statemachine-codegen-validate [-h] [--strict] [--quiet] [--no-color]",
    "                                     [--no-business-rules] [--debug]",
    "                                     diagrams [diagrams ...]",
    "",
    "Validate flowchart diagrams before code generation",
    "",
    "positional arguments:",
    "  diagrams             Diagram files to validate",
    "",
    "options:",
    "  -h, --help           show this help message and exit",
    "  --strict             Naming violations are errors; warnings fail the run",
    "                       (exit 2)",
    "  --quiet              Only show errors, suppress warnings",
    "  --no-color           Disable colored output",
    "  --no-business-rules  Only check diagram syntax",
    "  --debug              Enable debug logging",
    "",
    "Examples:",
    "  # Validate all diagrams",
    "  statemachine-codegen-validate docs/diagrams/*.md",
    "",
    "  # Strict mode (warnings cause failure)",
    "  statemachine-codegen-validate --strict docs/diagrams/*.md",
    "",
    "  # Syntax only",
    "  statemachine-codegen-validate --no-business-rules docs/diagrams/*.md",
    "        "]
  options := [⟨["-h", "--help"], .help⟩, ⟨["--strict"], .flag⟩, ⟨["--quiet"], .flag⟩,
    ⟨["--no-color"], .flag⟩, ⟨["--no-business-rules"], .flag⟩, ⟨["--debug"], .flag⟩]
  words := { name := "diagrams", arity := .atLeastOne }

structure Options where
  strict : Bool := false
  quiet : Bool := false
  color : Bool := true
  business : Bool := true
deriving DecidableEq, Repr

def options (g : Given) : Options where
  strict := g.hasFlag "--strict"
  quiet := g.hasFlag "--quiet"
  color := !g.hasFlag "--no-color"
  business := !g.hasFlag "--no-business-rules"

def Options.check (o : Options) : CheckOptions := { strict := o.strict, business := o.business }

/-- Audits the machines in the file at a path. -/
def auditFile (o : CheckOptions) (d : Disk) (path : String) : Except Fault Report := do
  match ReaderSettings.sourceAt {} d path with
  | .ok source =>
    if source.diagrams.isEmpty then return {}
    else return Audit.check o (source.diagrams.map Audit.Spec.ofDiagram) path
  | .error (.unreadable p reason) =>
    return .ofFindings path
      [.error (Fault.unreadable p reason).message "file_read_error" none none]
  | .error fault => throw fault

/-- Lints a file, and audits it when it has no errors. -/
def checkPath (o : CheckOptions) (d : Disk) (path : String) : Except Fault Report := do
  let linted ← Lint.checkFile o.lint d path
  if !linted.isValid || !o.business then return linted
  else return linted.merge (← auditFile o d path)

/-- What turns on a color, and what turns it off. -/
inductive Style where
  | red
  | yellow
  | green
  | blue
  | bold
  | plain
deriving DecidableEq, Repr

/-- The mark of a style; without colors it is empty. -/
def paint (color : Bool) (s : Style) : String :=
  if color then
    match s with
    | .red => "\x1b[91m"
    | .yellow => "\x1b[93m"
    | .green => "\x1b[92m"
    | .blue => "\x1b[94m"
    | .bold => "\x1b[1m"
    | .plain => "\x1b[0m"
  else ""

/-- The lines for one finding. -/
def findingLines (color : Bool) (label : String) (style : Style) (f : Finding) : List String :=
  let place := match f.line with
    | some n => if n == 0 then "" else s!"line {n}: "
    | none => ""
  let hint := match f.suggestion with
    | some s =>
      if s.isEmpty then []
      else ["    " ++ paint color .blue ++ "💡 " ++ s ++ paint color .plain]
    | none => []
  (paint color style ++ s!"  [{label}] {place}{f.message}" ++ paint color .plain) :: hint

/-- The lines for one file. -/
def reportLines (o : Options) (r : Report) : List String :=
  let name := Path.baseName r.source
  let ink := paint o.color
  if r.errors.isEmpty && r.warnings.isEmpty then
    if o.quiet then []
    else [ink .green ++ "✅ " ++ name ++ ": All validations passed" ++ ink .plain]
  else
    let head :=
      if !r.errors.isEmpty then ["", ink .red ++ "❌ " ++ ink .bold ++ name ++ ink .plain]
      else if o.quiet then []
      else ["", ink .yellow ++ "⚠️  " ++ ink .bold ++ name ++ ink .plain]
    let warnings := if o.quiet then [] else r.warnings
    head ++ r.errors.flatMap (findingLines o.color "ERROR" .red) ++
      warnings.flatMap (findingLines o.color "WARNING" .yellow)

/-- What the reports printed so far have come to: the lines about them and what they count. -/
structure Tally where
  lines : List String := []
  errors : Nat := 0
  warnings : Nat := 0
deriving DecidableEq, Repr

/-- Prints one more report. What it shows depends on the options, what it counts does not. -/
def Tally.add (o : Options) (t : Tally) (r : Report) : Tally :=
  let lines := t.lines ++ reportLines o r
  if r.errors.isEmpty && r.warnings.isEmpty then { t with lines }
  else { lines, errors := t.errors + r.errors.length, warnings := t.warnings + r.warnings.length }

/-- Prints reports in order. -/
def printReports (o : Options) (rs : List Report) : Tally := rs.foldl (Tally.add o) {}

/-- A line across. -/
def bar : String := String.ofList (List.replicate 70 '=')

def passedCount (rs : List Report) : Nat :=
  (rs.filter fun r => r.errors.isEmpty && r.warnings.isEmpty).length

/-- The exit code: errors fail the command, and warnings do when it is strict. -/
def exitCode (strict : Bool) (t : Tally) : Nat :=
  if t.errors > 0 then 1
  else if strict && t.warnings > 0 then 2
  else 0

/-- The last lines: how many files passed, and what that means. -/
def verdict (strict : Bool) (rs : List Report) (t : Tally) : List String :=
  if t.errors == 0 && t.warnings == 0 then [s!"✅ All {rs.length} diagram(s) passed validation"]
  else
    ["📊 Summary:", s!"   Diagrams checked: {rs.length}", s!"   Passed: {passedCount rs}",
     s!"   Errors: {t.errors}", s!"   Warnings: {t.warnings}", bar, "",
     if t.errors > 0 then "❌ Validation failed: Fix errors before generating code"
     else if strict then "⚠️  Strict mode: Warnings present, treating as failure"
     else "⚠️  Warnings present but validation passed"]

/-- All lines that the command writes. -/
def lines (o : Options) (rs : List Report) (t : Tally) : List String :=
  ["", bar, "Flowchart Diagram Validation", bar] ++ t.lines ++ ["", bar] ++ verdict o.strict rs t

/-- Runs the command. -/
def run (d : Disk) (args : List String) : Except Fault Exit :=
  match grammar.readAll args with
  | .error stop => .ok stop.exit
  | .ok given => do
    let o := options given
    let reports ← given.words.mapM (checkPath o.check d)
    let printed := printReports o reports
    return { code := exitCode o.strict printed, out := ofLines (lines o reports printed) }

end FlowMachine.Command.Validate
