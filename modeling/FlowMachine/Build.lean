import FlowMachine.Audit
import FlowMachine.Diagram.File
import FlowMachine.Emit
import FlowMachine.Machine.Derive
import FlowMachine.Manifest.Tracker
import FlowMachine.Output
import FlowMachine.Sources

/-!
# Builds

A build reads sources, audits the machines in them, writes the documents of every machine, checks
the written modules and puts them on the disk. It is left out when nothing changed since the last
one. A problem with one source or one document is reported and does not stop the others.
-/
namespace FlowMachine

/-- What a build did. -/
structure Outcome where
  files : List OutputFile := []
  errors : List Finding := []
  warnings : List Finding := []
  /-- The machines of which documents were written. -/
  machines : Nat := 0
  writes : List WriteResult := []
  skipped : Bool := false
deriving DecidableEq, Repr

namespace Outcome

def success (o : Outcome) : Bool := o.errors.isEmpty

/-- The lines of all files together. -/
def lineCount (o : Outcome) : Nat := total (o.files.map OutputFile.lineCount)

/-- Appends findings, errors and warnings apart. -/
def report (o : Outcome) (fs : List Finding) : Outcome :=
  { o with errors := o.errors ++ errorsOf fs, warnings := o.warnings ++ warningsOf fs }

end Outcome

/-- A builder under settings. It keeps its manifest in memory once it has needed it. -/
structure Builder where
  settings : BuildSettings := {}
  unavailable : Document → Option String := fun _ => none
  tracker : Option Tracker := none

namespace Builder

/-- An error without a place. -/
def failure (message category : String) : Finding := .error message category none none

/-- The documents that the settings ask for. -/
def documents (b : Builder) : List Document :=
  let s := b.settings
  let tests := s.generateTests.truthy
  Document.all.filter fun document =>
    match document with
    | .machine => true
    | .smokeTests => tests
    | .transitionTests => tests && s.includeTransitionTests.truthy
    | .errorTests => tests && s.includeErrorTests.truthy
    | .demo => s.generateDemos.truthy
    | .service => s.generateServices.truthy

def emitOptions (b : Builder) : EmitOptions where
  comprehensive := match b.settings.testStyle with
    | .text s => s == "comprehensive"
    | _ => false
  unavailable := b.unavailable

/-- Writes the text of one document, or reports that it is unavailable. -/
def emitDocument (b : Builder) (m : Machine) (document : Document) :
    Except Fault (List OutputFile × List Finding) :=
  match b.unavailable document with
  | some reason =>
    .ok ([], [failure (Fault.notRendered document.name m.id reason).message "emitter"])
  | none => do
    let directory ← BuildSettings.pathOf b.settings.outputDir
    return ([document.file b.emitOptions m directory], [])

/-- Puts the files and the findings of several steps together. -/
def gather (parts : List (List OutputFile × List Finding)) : List OutputFile × List Finding :=
  (parts.flatMap Prod.fst, parts.flatMap Prod.snd)

/-- Writes the texts of all documents of a machine. -/
def emitMachine (b : Builder) (m : Machine) : Except Fault (List OutputFile × List Finding) :=
  return gather (← b.documents.mapM (b.emitDocument m))

/-- The files of diagrams, in order. -/
def emit (b : Builder) (diagrams : List Diagram) : Except Fault (List OutputFile × List Finding) :=
  return gather (← diagrams.mapM fun d => b.emitMachine (Machine.derive {} d))

/-- Checks a file, which is dropped when it has errors. -/
def checkFile (f : OutputFile) : Except Fault (List OutputFile × List Finding) := do
  let r ← Module.check f
  return (if r.isValid then [f] else [], (Module.underPath f r).findings)

/-- Checks files when the settings ask for it. -/
def checkFiles (b : Builder) (files : List OutputFile) :
    Except Fault (List OutputFile × List Finding) := do
  if b.settings.checkGeneratedCode.truthy then return gather (← files.mapM checkFile)
  else return (files, [])

/-- Adds the files of diagrams to an outcome. -/
def render (b : Builder) (o : Outcome) (diagrams : List Diagram) : Except Fault Outcome := do
  let emitted ← b.emit diagrams
  let checked ← b.checkFiles emitted.1
  return { o.report (emitted.2 ++ checked.2) with
    files := checked.1, machines := diagrams.length }

/-- Builds the files of a text without touching the disk. -/
def renderText (b : Builder) (text : String) (name : Option String) : Except Fault Outcome := do
  let source ← b.settings.reader.readSource text name none
  b.render (Outcome.report {} source.findings) source.diagrams

/-- A finding with the name of its source in front. -/
def underSource (path : String) (f : Finding) : Finding :=
  if path.isEmpty then f else f.under (Path.baseName path)

/-- Reads one source for a build: one that cannot be read is reported. -/
def readPath (b : Builder) (d : Disk) (path : String) :
    Except Fault (List Diagram × List Finding) :=
  match b.settings.reader.sourceAt d path with
  | .ok source => .ok (source.diagrams, source.findings.map (underSource path))
  | .error (.unreadable p reason) =>
    .ok ([], [failure (Fault.unreadable p reason).message "source_read"])
  | .error fault => .error fault

/-- Reads all sources of a build. -/
def readPaths (b : Builder) (d : Disk) (paths : List String) :
    Except Fault (List Diagram × List Finding) := do
  let parts ← paths.mapM (b.readPath d)
  return (parts.flatMap Prod.fst, parts.flatMap Prod.snd)

/-- Audits diagrams when the settings ask for it. -/
def audit (b : Builder) (diagrams : List Diagram) : Except Fault Report := do
  if b.settings.validateBusinessRules.truthy then
    let specs := diagrams.map Audit.Spec.ofDiagram
    Audit.underSettings b.settings.rules specs (Audit.check · specs "batch")
  else return {}

/-- What a build would write, before anything is written: an outcome, and whether it goes on to the
disk. -/
def propose (b : Builder) (d : Disk) (paths : List String) : Except Fault (Outcome × Bool) := do
  let read ← b.readPaths d paths
  let o := Outcome.report {} read.2
  if read.1.isEmpty then
    return (o.report [failure "No machines found in diagram sources" "sources"], false)
  else
    let audited ← b.audit read.1
    let o := o.report audited.findings
    if !audited.errors.isEmpty && b.settings.blockOnErrors.truthy then return (o, false)
    else return (← b.render o read.1, !b.settings.dryRun.truthy)

/-- The tracker, opened when it is needed first. -/
def withTracker (b : Builder) (d : Disk) : Except Fault (Tracker × Builder) :=
  match b.tracker with
  | some t => .ok (t, b)
  | none => do
    let t ← Tracker.load d (← b.settings.manifest)
    return (t, { b with tracker := some t })

/-- The paths are as the last build left them. What the disk refuses counts as a change. -/
def unchanged (d : Disk) (m : Manifest) (paths : List String) : Except Fault Bool :=
  let found : Except Fault Bool := do
    if ← Tracker.upToDate d m paths then return !(← Tracker.changes d m paths).any
    else return false
  match found with
  | .error (.file _ _) => .ok false
  | found => found

/-- Every path leads to a file. -/
def allFiles (d : Disk) : List String → Except Fault Bool
  | [] => .ok true
  | path :: rest => do
    if ← d.isFile (.ofText path) then allFiles d rest else return false

/-- The build can be left out. -/
def isSettled (b : Builder) (d : Disk) (paths : List String) (force : Bool) :
    Except Fault Bool × Builder :=
  if force || b.settings.dryRun.truthy || !b.settings.incremental.truthy then (.ok false, b)
  else
    match allFiles d paths with
    | .error fault => (.error fault, b)
    | .ok false => (.ok false, b)
    | .ok true =>
      match b.withTracker d with
      | .error (.file _ _) => (.ok false, b)
      | .error fault => (.error fault, b)
      | .ok (t, b) => (unchanged d t.manifest paths, b)

/-- Writes files one after the other. -/
def writeFiles (b : Builder) : List OutputFile → Act (List WriteResult)
  | [] => return []
  | f :: rest => do
    let r ← f.write b.settings.overwrite.truthy b.settings.backup.truthy
    return r :: (← b.writeFiles rest)

/-- The findings about files that could not be written. -/
def writeFailures (files : List OutputFile) (results : List WriteResult) : List Finding :=
  (files.zip results).filterMap fun (f, r) =>
    if r.success then none
    else some (failure s!"Failed to write {f.path}: {r.message}" "write")

/-- Records a build whose files are all written. What the disk refuses is a warning. -/
def commit (b : Builder) (o : Outcome) (paths : List String) :
    StateM Disk (Except Fault Outcome × Builder) := do
  let refused (fault : Fault) : Outcome :=
    o.report [.warning s!"Manifest not updated: {fault.message}" "manifest" none none]
  let settle (b : Builder) : Except Fault Unit → Except Fault Outcome × Builder
    | .ok () => (.ok o, b)
    | .error (.file e shown) => (.ok (refused (.file e shown)), b)
    | .error fault => (.error fault, b)
  match b.withTracker (← get) with
  | .error fault => return settle b (.error fault)
  | .ok (t, b) =>
    let done ← t.commit paths (o.files.map OutputFile.path)
    return settle { b with tracker := some done.1 } done.2

/-- Writes the files of an outcome, and records the build when all of them are written. -/
def finish (b : Builder) (o : Outcome) (paths : List String) :
    StateM Disk (Except Fault Outcome × Builder) := do
  match ← (b.writeFiles o.files).run with
  | .error fault => return (.error fault, b)
  | .ok results =>
    let o := { o.report (writeFailures o.files results) with writes := results }
    if results.all WriteResult.success then b.commit o paths else return (.ok o, b)

/-- The paths of the given sources, or of those in the settings. -/
def resolve (b : Builder) (d : Disk) (sources : Option (List String)) :
    Except Fault (List String) := do
  match sources with
  | some sources => Sources.resolve d sources
  | none => Sources.resolve d (← Sources.listed b.settings.sources)

/-- Runs a build. -/
def generate (b : Builder) (sources : Option (List String)) (force : Bool) :
    StateM Disk (Except Fault Outcome × Builder) := do
  let d ← get
  match b.resolve d sources with
  | .error fault => return (.error fault, b)
  | .ok [] => return (.ok (Outcome.report {} [failure "No diagram sources given" "sources"]), b)
  | .ok paths =>
    match b.isSettled d paths force with
    | (.error fault, b) => return (.error fault, b)
    | (.ok true, b) => return (.ok { skipped := true }, b)
    | (.ok false, b) =>
      match b.propose d paths with
      | .error fault => return (.error fault, b)
      | .ok (o, false) => return (.ok o, b)
      | .ok (o, true) => b.finish o paths

end Builder

end FlowMachine
