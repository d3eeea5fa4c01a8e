import FlowMachine.Build

/-!
# Builds as data

What a build found and did, as data for other programs.
-/
namespace FlowMachine

/-- A finding as data. What is not known or empty is left out. -/
def Finding.toDatum (f : Finding) : Datum :=
  .ofFields ([("message", .text f.message), ("severity", .text f.severity.name)] ++
    (match f.line with
    | some n => [("line", .int n)]
    | none => []) ++
    (match f.suggestion with
    | some s => if s.isEmpty then [] else [("suggestion", .text s)]
    | none => []) ++
    (if f.category.isEmpty then [] else [("category", .text f.category)]))

/-- A file as data, without its content. -/
def OutputFile.toDatum (f : OutputFile) : Datum :=
  .ofFields [("path", .text f.path), ("kind", .text f.kind.name), ("size", .int f.size),
    ("machine_id", .text f.machineId), ("emitter", .text f.document)]

namespace Outcome

/-- The counts of a build. The time it took is not measured. -/
def stats (o : Outcome) : Datum :=
  .ofFields [("machinesGenerated", .int o.machines), ("filesCreated", .int o.files.length),
    ("linesOfCode", .int o.lineCount), ("durationMs", .int 0)]

def toDatum (o : Outcome) : Datum :=
  .ofFields [("generatedFiles", .list (o.files.map OutputFile.toDatum)),
    ("errors", .list (o.errors.map Finding.toDatum)),
    ("warnings", .list (o.warnings.map Finding.toDatum)), ("stats", o.stats),
    ("skipped", .bool o.skipped)]

end Outcome

end FlowMachine
