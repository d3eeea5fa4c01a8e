import FlowMachine.Build.Summary
import FlowMachine.Command.Arguments
import FlowMachine.Command.Exit
import FlowMachine.Command.Table
import FlowMachine.Command.Timestamp
import FlowMachine.Settings.File

/-!
# The build command

`statemachine-codegen` builds from diagrams, and shows, exports or resets the manifest. Settings
come from a file, and options given with the command go before them.
-/
namespace FlowMachine.Command.Codegen

def helpOption : OptionSpec := ⟨["-h", "--help"], .help⟩

def grammar : Grammar where
  program := "statemachine-codegen"
  help := [
    "usage: statemachine-codegen [-h] [--config CONFIG] [--output-dir OUTPUT_DIR]",
    "                            [--manifest MANIFEST] [--debug]",
    "                            \x7bgenerate,manifest\x7d ...",
    "",
    "Generate state machine code from flowchart diagrams",
    "",
    "positional arguments:",
    "  \x7bgenerate,manifest\x7d   Available commands",
    "    generate            Generate code from diagrams",
    "    manifest            Inspect the incremental build manifest",
    "",
    "options:",
    "  -h, --help            show this help message and exit",
    "  --config CONFIG       YAML configuration file",
    "  --output-dir OUTPUT_DIR",
    "                        Output directory (overrides config)",
    "  --manifest MANIFEST   Manifest path (default: <output-dir>/.generation-",
    "                        manifest.json)",
    "  --debug               Enable debug logging",
    "",
    "Examples:",
    "  statemachine-codegen generate docs/diagrams/*.md --output-dir src/machines",
    "  statemachine-codegen --config codegen.yaml generate --force",
    "  statemachine-codegen --config codegen.yaml manifest stats",
    "        "]
  options := [helpOption, ⟨["--config"], .value []⟩, ⟨["--output-dir"], .value []⟩,
    ⟨["--manifest"], .value []⟩, ⟨["--debug"], .flag⟩]
  words := ⟨"command", .command, ["generate", "manifest"]⟩

def generateGrammar : Grammar where
  program := "statemachine-codegen generate"
  help := [
    "usage: statemachine-codegen generate [-h] [--force] [--dry-run] [--json]",
    "                                     [--no-tests]",
    "                                     [--test-style \x7bsmoke,comprehensive\x7d]",
    "                                     [sources ...]",
    "",
    "positional arguments:",
    "  sources               Diagram files, directories or glob patterns",
    "",
    "options:",
    "  -h, --help            show this help message and exit",
    "  --force               Regenerate even if sources are unchanged",
    "  --dry-run             Render without writing files",
    "  --json                Print the result as JSON",
    "  --no-tests            Skip generated test suites",
    "  --test-style \x7bsmoke,comprehensive\x7d",
    "                        Generated smoke test style"]
  options := [helpOption, ⟨["--force"], .flag⟩, ⟨["--dry-run"], .flag⟩, ⟨["--json"], .flag⟩,
    ⟨["--no-tests"], .flag⟩, ⟨["--test-style"], .value ["smoke", "comprehensive"]⟩]
  words := { name := "sources", arity := .any }

def manifestGrammar : Grammar where
  program := "statemachine-codegen manifest"
  help := [
    "usage: statemachine-codegen manifest [-h] [\x7bstats,reset,export\x7d]",
    "",
    "positional arguments:",
    "  \x7bstats,reset,export\x7d",
    "",
    "options:",
    "  -h, --help            show this help message and exit"]
  options := [helpOption]
  words := ⟨"manifest_command", .atMostOne, ["stats", "reset", "export"]⟩

/-- What is asked of the manifest. -/
inductive ManifestAction where
  | stats
  | reset
  | print
deriving DecidableEq, Repr

inductive Action where
  | generate (sources : List String) (force json : Bool)
  | manifest (action : ManifestAction)
deriving DecidableEq, Repr

/-- Options that go before the settings. -/
structure Overrides where
  config : Option String := none
  outputDir : Option String := none
  manifest : Option String := none
  dryRun : Bool := false
  noTests : Bool := false
  testStyle : Option String := none
deriving DecidableEq, Repr

/-- A value that was given and is not empty. -/
def given? (g : Given) (name : String) : Option String := (g.value? name).filter (!·.isEmpty)

def overrides (top sub : Given) : Overrides where
  config := given? top "--config"
  outputDir := given? top "--output-dir"
  manifest := given? top "--manifest"
  dryRun := sub.hasFlag "--dry-run"
  noTests := sub.hasFlag "--no-tests"
  testStyle := given? sub "--test-style"

def manifestAction (g : Given) : ManifestAction :=
  match g.words with
  | ["reset"] => .reset
  | ["export"] => .print
  | _ => .stats

/-- Reads the arguments of a command and of the command it names. What neither recognizes is a
mistake of the outer one. Without a command there is nothing to do. -/
def read (args : List String) : Except Stop (Option (Overrides × Action)) := do
  let top ← grammar.read args
  let settled (sub : Given) (a : Action) : Except Stop (Option (Overrides × Action)) :=
    match top.extras ++ sub.extras with
    | [] => .ok (some (overrides top sub, a))
    | extras => .error (.mistake grammar ("unrecognized arguments: " ++ " ".intercalate extras))
  match top.words with
  | "generate" :: rest =>
    let sub ← generateGrammar.read rest
    settled sub (.generate sub.words (sub.hasFlag "--force") (sub.hasFlag "--json"))
  | "manifest" :: rest =>
    let sub ← manifestGrammar.read rest
    settled sub (.manifest (manifestAction sub))
  | _ =>
    if top.extras.isEmpty then return none
    else throw (.mistake grammar ("unrecognized arguments: " ++ " ".intercalate top.extras))

/-- The settings of a file, with the options in place. -/
def settings (d : Disk) (o : Overrides) : Except Fault BuildSettings := do
  let s ← match o.config with
    | some file => Settings.load d file
    | none => pure {}
  return { s with
    outputDir := (o.outputDir.map Datum.text).getD s.outputDir
    manifestPath := (o.manifest.map Datum.text).getD s.manifestPath
    dryRun := if o.dryRun then .bool true else s.dryRun
    generateTests := if o.noTests then .bool false else s.generateTests
    testStyle := (o.testStyle.map Datum.text).getD s.testStyle }

/-- The files of a build as a table. -/
def fileTable (files : List OutputFile) : List String :=
  if files.isEmpty then []
  else
    Table.lines true
      [{ title := "Machine", cells := files.map OutputFile.machineId },
       { title := "Kind", cells := files.map OutputFile.document },
       { title := "Path", cells := files.map OutputFile.path },
       { title := "Lines", align := .right, cells := files.map fun f => toString f.lineCount },
       { title := "Bytes", align := .right, cells := files.map fun f => toString f.size }]

/-- What a build did, for a reader. -/
def summary (o : Outcome) : List String :=
  if o.skipped then
    ["✅ Sources unchanged since last run, nothing to generate (use --force to rebuild)"]
  else
    fileTable o.files ++ (o.warnings.map fun f => "  [WARNING] " ++ f.text) ++
      (o.errors.map fun f => "  [ERROR] " ++ f.text) ++
      ["",
       s!"📊 {o.machines} machine(s), {o.files.length} file(s), {o.lineCount} lines in 0ms",
       if o.errors.isEmpty then "✅ Generation finished"
       else s!"❌ Generation finished with {o.errors.length} error(s)"]

/-- Runs a build. -/
def generate (s : BuildSettings) (sources : List String) (force json : Bool) :
    StateM Disk (Except Fault Exit) := do
  let builder : Builder := { settings := s }
  let given := if sources.isEmpty then none else some sources
  match (← builder.generate given force).1 with
  | .error fault => return .error fault
  | .ok o =>
    let lines := if json then [Json.pretty o.toDatum] else summary o
    return .ok { code := if o.errors.isEmpty then 0 else 1, out := ofLines lines }

/-- The time of the last build, for a reader. -/
def lastUpdate (m : Manifest) : Except Fault String :=
  if m.lastUpdate == 0 then .ok "never"
  else
    match Timestamp.text m.lastUpdate with
    | .ok s => .ok s
    | .error cause => .error (.time cause)

/-- The counts of a manifest as a table. -/
def statsTable (path : Path) (m : Manifest) : Except Fault (List String) := do
  let time ← lastUpdate m
  return Table.lines false
    [{ cells := ["Manifest", "Source files", "Generated files", "Last update", "Manifest size"] },
     { cells := [path.toText, toString m.sources.length, toString m.generated.length, time,
         toString m.size] }]

/-- Looks at the manifest, or forgets it. -/
def manifest (s : BuildSettings) (a : ManifestAction) : StateM Disk (Except Fault Exit) := do
  let d ← get
  let opened : Except Fault Tracker := do Tracker.load d (← s.manifest)
  match opened with
  | .error fault => return .error fault
  | .ok t =>
    match a with
    | .reset =>
      match (← t.reset).2 with
      | .error fault => return .error fault
      | .ok () => return .ok { out := ofLines [s!"Manifest reset: {t.path.toText}"] }
    | .print => return .ok { out := ofLines [t.manifest.render] }
    | .stats => return (statsTable t.path t.manifest).map fun lines => { out := ofLines lines }

/-- Settings that cannot be used end the command; every other fault goes through. -/
def refuse : Fault → Except Fault Exit
  | .settings cause =>
    .ok { code := 1, err := ofLines ["❌ Configuration error: " ++ cause.message] }
  | fault => .error fault

/-- Runs the command. -/
def run (args : List String) : StateM Disk (Except Fault Exit) := do
  match read args with
  | .error stop => return .ok stop.exit
  | .ok none => return .ok { code := 1, out := ofLines grammar.help }
  | .ok (some (o, action)) =>
    match settings (← get) o with
    | .error fault => return refuse fault
    | .ok s =>
      match action with
      | .generate sources force json => generate s sources force json
      | .manifest a => manifest s a

end FlowMachine.Command.Codegen
