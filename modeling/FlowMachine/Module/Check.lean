import FlowMachine.Fault
import FlowMachine.Finding
import FlowMachine.Module.Statement
import FlowMachine.Text.Lines

/-!
# Checking written modules

Before a module is written it is read back. A text that is not well formed is an error; a machine
module that lacks a name which other modules import, and a suite without tests, are warnings.
-/
namespace FlowMachine

/-- What a written file is for. -/
inductive FileKind where
  | machine
  | test
  | demo
  | service
deriving DecidableEq, Repr

namespace FileKind

def name : FileKind → String
  | .machine => "machine"
  | .test => "test"
  | .demo => "demo"
  | .service => "service"

def ofName? : String → Option FileKind
  | "machine" => some .machine
  | "test" => some .test
  | "demo" => some .demo
  | "service" => some .service
  | _ => none

end FileKind

/-- A file that is proposed for writing. -/
structure OutputFile where
  path : String
  kind : FileKind
  content : String
  machineId : String := ""
  document : String := ""
deriving DecidableEq, Repr

namespace OutputFile

/-- The number of bytes that the content takes. -/
def size (f : OutputFile) : Nat := f.content.utf8ByteSize

def lineCount (f : OutputFile) : Nat := (Text.lines f.content.toList).length

end OutputFile

namespace Module

/-- What is wrong with a module text, and where. -/
structure Mistake where
  message : String
  line : Nat
deriving DecidableEq, Repr

/-- A fault that stops the tokens behind a place. A bracket that stays open counts only when it was
opened in a line before the place, and what is wrong between tokens does not count. -/
def laterFault? (line : Nat) (rest : List Token) : Option Mistake :=
  rest.findSome? fun t =>
    match t.lexeme with
    | .bad (.unclosed bracket) =>
      if t.line < line then some ⟨LexFault.message (.unclosed bracket), t.line⟩ else none
    | .bad fault => if fault.isBetween then none else some ⟨fault.message, t.line⟩
    | _ => none

/-- How a fault is reported. A fault of the tokens behind it goes first. -/
def ParseFault.mistake (e : ParseFault) : Mistake :=
  match e with
  | .misplaced rest seen =>
    match rest with
    | ⟨.bad fault, line, _⟩ :: _ => ⟨fault.message, line⟩
    | ⟨.indent, line, _⟩ :: _ => ⟨"unexpected indent", line⟩
    | ⟨.dedent, line, _⟩ :: _ => ⟨"unexpected unindent", line⟩
    | _ => (laterFault? (lineOf seen) seen.tail).getD ⟨"invalid syntax", lineOf rest⟩
  | .remarked remark line seen => (laterFault? (lineOf seen) seen).getD ⟨remark.message, line⟩

/-- Reads a module text. -/
def read (cs : List Char) : Except Mistake Outline :=
  let ts := tokenList (Text.unifyBreaks cs)
  match moduleBody (16 * ts.length + 64) true ts with
  | .ok (outline, _) => .ok outline
  | .error e => .error e.mistake

/-- The names that a machine module has to define. -/
def requiredNames : List String := ["MACHINE_ID", "INITIAL_STATE", "create_machine"]

/-- What is found in a module text of a kind. -/
def findings (kind : FileKind) (cs : List Char) : List Finding :=
  match read cs with
  | .error m =>
    [.error s!"Syntax error in generated {kind.name} file: {m.message}" "syntax" (some m.line) none]
  | .ok outline =>
    match kind with
    | .machine =>
      (requiredNames.filter (!outline.names.contains ·)).map fun name =>
        .warning s!"Machine module does not define {name}" "structure" none none
    | .test =>
      if outline.tests == 0 then
        [.warning "Test module defines no tests" "structure" none none]
      else []
    | _ => []

/-- Checks a file. A text or a path with a null character cannot be read at all. -/
def check (f : OutputFile) : Except Fault Report :=
  if f.path.toList.contains (Char.ofNat 0) then .error .nulInModulePath
  else if f.content.toList.contains (Char.ofNat 0) then .error .nulInModule
  else .ok (.ofFindings f.path (findings f.kind f.content.toList))

/-- A report with the path of its file in front of every message. -/
def underPath (f : OutputFile) (r : Report) : Report :=
  { r with errors := r.errors.map (·.under f.path), warnings := r.warnings.map (·.under f.path) }

/-- Checks files one after the other, and together. -/
def checkAll (fs : List OutputFile) : Except Fault Report := do
  let reports ← fs.mapM fun f => return underPath f (← check f)
  return reports.foldl Report.merge { source := "generated" }

end Module

end FlowMachine
