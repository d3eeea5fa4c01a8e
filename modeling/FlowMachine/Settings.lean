import FlowMachine.Diagram.Source
import FlowMachine.Fault
import FlowMachine.Path

/-!
# Settings

The settings of reading, of checking and of building, as given in a mapping. The kinds of most
values are not checked when settings are read: a value of a wrong kind shows where it is used.
-/
namespace FlowMachine

/-- Settings of reading diagrams. -/
structure ReaderSettings where
  placeholderForEmpty : Datum := .bool true
  maxLabelLength : Datum := .int 50
deriving Repr

/-- Settings of the diagram lint and of the business rules. -/
structure RuleSettings where
  strictMode : Datum := .bool false
  checkBusinessRules : Datum := .bool true
  validateNaming : Datum := .bool true
  checkNavigation : Datum := .bool true
  maxStates : Datum := .int 50
  maxTransitions : Datum := .int 20
  allowedCategories : Datum :=
    .list [.text "info", .text "user", .text "agent", .text "account", .text "core"]
deriving Repr

/-- Settings of a build. -/
structure BuildSettings where
  sources : Datum := .list []
  outputDir : Datum := .text "generated"
  manifestPath : Datum := .null
  generateTests : Datum := .bool true
  includeTransitionTests : Datum := .bool true
  includeErrorTests : Datum := .bool true
  generateDemos : Datum := .bool true
  generateServices : Datum := .bool true
  testStyle : Datum := .text "comprehensive"
  overwrite : Datum := .bool true
  backup : Datum := .bool false
  dryRun : Datum := .bool false
  incremental : Datum := .bool true
  validateBusinessRules : Datum := .bool true
  blockOnErrors : Datum := .bool false
  checkGeneratedCode : Datum := .bool true
  reader : ReaderSettings := {}
  rules : RuleSettings := {}
deriving Repr

namespace Settings

abbrev Entries := List (Key × Datum)

/-- The value of an option, or its default. -/
def get (entries : Entries) (name : String) (default : Datum) : Datum :=
  (Datum.lookup entries name).getD default

/-- The least of the numbers among keys, if there is one. -/
def leastNumber? (keys : List Key) : Option Key :=
  keys.foldl (fun least key =>
    if key.isNumber then
      match least with
      | some other => if other.notAbove key then some other else some key
      | none => some key
    else least) none

/-- The fault of keys that are no options: texts are listed in order. Numbers are ordered too, but
cannot be listed. -/
def unknownFault (name : String) (keys : List Key) : Fault :=
  let texts := keys.filterMap Key.text?
  match keys.filter fun key => key.text?.isNone with
  | [] => .settings (.unknownOptions name (texts.mergeSort fun a b => decide (a ≤ b)))
  | key :: rest =>
    if !texts.isEmpty then .kind (.unordered "<" "str" key.toDatum.familyName)
    else
      match rest.find? fun other => !key.ordersWith other with
      | some other => .kind (.unordered "<" other.toDatum.familyName key.toDatum.familyName)
      | none => .kind (.notText 0 ((leastNumber? keys).getD key).toDatum.familyName)

/-- The entries of a section, all of them known options. A section that is not given has none. -/
def section? (name : String) (known : List String) : Datum → Except Fault Entries
  | .null => .ok []
  | .map entries =>
    let unknown := (entries.map Prod.fst).filter fun key => !(known.map Key.text).contains key
    if unknown.isEmpty then .ok entries else .error (unknownFault name unknown)
  | d => .error (.settings (.sectionNotMapping name d.kindName))

end Settings

open Settings

namespace ReaderSettings

def options : List String := ["placeholder_for_empty", "max_label_length"]

def read (d : Datum) : Except Fault ReaderSettings := do
  let entries ← section? "parser" options d
  return {
    placeholderForEmpty := get entries "placeholder_for_empty" (.bool true)
    maxLabelLength := get entries "max_label_length" (.int 50) }

def toDatum (s : ReaderSettings) : Datum :=
  .ofFields [("placeholder_for_empty", s.placeholderForEmpty),
    ("max_label_length", s.maxLabelLength)]

end ReaderSettings

/-- The limit that a number sets. -/
def Limit.ofDatum? (d : Datum) : Option Limit :=
  match d with
  | .real (.infinity true) => some ⟨-1, d.literal⟩
  | .real (.infinity false) => some ⟨Nat.pow 10 400, d.literal⟩
  | .real .nan => some ⟨Nat.pow 10 400, d.literal⟩
  | _ => d.floor?.map fun bound => ⟨bound, d.literal⟩

namespace RuleSettings

def options : List String :=
  ["strict_mode", "check_business_rules", "validate_naming", "check_navigation",
   "max_states_per_machine", "max_transitions_per_state", "allowed_categories"]

/-- Whether a limit is below one. -/
def belowOne (d : Datum) : Except Fault Bool :=
  match Limit.ofDatum? d with
  | some limit => .ok (decide (limit.bound < 1))
  | none => .error (.kind (.unordered "<" d.familyName "int"))

def read (d : Datum) : Except Fault RuleSettings := do
  let entries ← section? "validation" options d
  let standard : RuleSettings := {}
  let s : RuleSettings := {
    strictMode := get entries "strict_mode" standard.strictMode
    checkBusinessRules := get entries "check_business_rules" standard.checkBusinessRules
    validateNaming := get entries "validate_naming" standard.validateNaming
    checkNavigation := get entries "check_navigation" standard.checkNavigation
    maxStates := get entries "max_states_per_machine" standard.maxStates
    maxTransitions := get entries "max_transitions_per_state" standard.maxTransitions
    allowedCategories := get entries "allowed_categories" standard.allowedCategories }
  if ← belowOne s.maxStates then throw (.settings .badLimits)
  if ← belowOne s.maxTransitions then throw (.settings .badLimits)
  return s

def toDatum (s : RuleSettings) : Datum :=
  .ofFields [("strict_mode", s.strictMode), ("check_business_rules", s.checkBusinessRules),
    ("validate_naming", s.validateNaming), ("check_navigation", s.checkNavigation),
    ("max_states_per_machine", s.maxStates), ("max_transitions_per_state", s.maxTransitions),
    ("allowed_categories", s.allowedCategories)]

end RuleSettings

namespace BuildSettings

/-- The plain options of a build, in order. -/
def options : List String :=
  ["sources", "output_dir", "manifest_path", "generate_tests", "include_transition_tests",
   "include_error_tests", "generate_demos", "generate_services", "test_style",
   "overwrite", "backup",
   "dry_run", "incremental", "validate_business_rules", "block_on_errors", "check_generated_code"]

def testStyles : List String := ["smoke", "comprehensive"]

/-- A single source stands for a list of one. -/
def sourceList : Datum → Datum
  | .text s => .list [.text s]
  | d => d

def checkTestStyle (d : Datum) : Except Fault Unit :=
  let known := match d with
    | .text s => testStyles.contains s
    | _ => false
  if known then .ok () else .error (.settings (.badTestStyle d.shown))

/-- The options of a build from the entries of a mapping. -/
def ofEntries (entries : Entries) (reader : ReaderSettings) (rules : RuleSettings) :
    BuildSettings :=
  let standard : BuildSettings := {}
  { sources := sourceList (get entries "sources" standard.sources)
    outputDir := get entries "output_dir" standard.outputDir
    manifestPath := get entries "manifest_path" standard.manifestPath
    generateTests := get entries "generate_tests" standard.generateTests
    includeTransitionTests := get entries "include_transition_tests" standard.includeTransitionTests
    includeErrorTests := get entries "include_error_tests" standard.includeErrorTests
    generateDemos := get entries "generate_demos" standard.generateDemos
    generateServices := get entries "generate_services" standard.generateServices
    testStyle := get entries "test_style" standard.testStyle
    overwrite := get entries "overwrite" standard.overwrite
    backup := get entries "backup" standard.backup
    dryRun := get entries "dry_run" standard.dryRun
    incremental := get entries "incremental" standard.incremental
    validateBusinessRules := get entries "validate_business_rules" standard.validateBusinessRules
    blockOnErrors := get entries "block_on_errors" standard.blockOnErrors
    checkGeneratedCode := get entries "check_generated_code" standard.checkGeneratedCode
    reader, rules }

/-- Reads the settings of a build. The sections of reading and checking are looked at first. -/
def read : Datum → Except Fault BuildSettings
  | .null => .ok {}
  | .map entries => do
    let reader ← ReaderSettings.read (get entries "parser" .null)
    let rules ← RuleSettings.read (get entries "validation" .null)
    let own := entries.filter fun entry =>
      entry.1 != .text "parser" && entry.1 != .text "validation"
    let own ← section? "generator" options (.map own)
    let s := ofEntries own reader rules
    checkTestStyle s.testStyle
    return s
  | d => .error (.settings (.notMapping d.kindName))

/-- The path a datum names. -/
def pathOf : Datum → Except Fault Path
  | .text s => .ok (Path.ofText s)
  | d => .error (.kind (.notPath d.kindName))

/-- The name of the manifest in the output directory. -/
def manifestName : String := ".generation-manifest.json"

/-- Where the manifest is kept: as given, or in the output directory. -/
def manifest (s : BuildSettings) : Except Fault Path :=
  if s.manifestPath.truthy then pathOf s.manifestPath
  else do return (← pathOf s.outputDir).join (.ofText manifestName)

def toDatum (s : BuildSettings) : Datum :=
  .ofFields [("sources", s.sources), ("output_dir", s.outputDir),
    ("manifest_path", s.manifestPath), ("generate_tests", s.generateTests),
    ("include_transition_tests", s.includeTransitionTests),
    ("include_error_tests", s.includeErrorTests), ("generate_demos", s.generateDemos),
    ("generate_services", s.generateServices), ("test_style", s.testStyle),
    ("overwrite", s.overwrite), ("backup", s.backup), ("dry_run", s.dryRun),
    ("incremental", s.incremental), ("validate_business_rules", s.validateBusinessRules),
    ("block_on_errors", s.blockOnErrors), ("check_generated_code", s.checkGeneratedCode),
    ("parser", s.reader.toDatum), ("validation", s.rules.toDatum)]

end BuildSettings

namespace ReaderSettings

/-- Reads the text of a source under settings. A limit that is no number stops at the first label
that is measured. -/
def readSource (s : ReaderSettings) (text : String) (name path : Option String) :
    Except Fault Source :=
  match Limit.ofDatum? s.maxLabelLength with
  | some labelLimit =>
    .ok (Source.read { placeholder := s.placeholderForEmpty.truthy, labelLimit } text name path)
  | none =>
    if Source.measuresLabels text then
      .error (.kind (.unordered ">" "int" s.maxLabelLength.familyName))
    else
      .ok (Source.read { placeholder := s.placeholderForEmpty.truthy } text name path)

end ReaderSettings

end FlowMachine
