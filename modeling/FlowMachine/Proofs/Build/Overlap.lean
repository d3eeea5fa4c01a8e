import FlowMachine.Proofs.Audit.Findings
import FlowMachine.Proofs.Build.Run
import FlowMachine.Proofs.Emit.Places
import Mathlib.Data.List.Nodup
import Mathlib.Data.List.Pairwise

/-!
# Builds whose files overlap

A build without errors has every document of every machine among its files. The audit keeps the
display names of the machines apart, but a document goes where the directory of the category and the
machine id lead, and it is these that decide whether two files of a build have one path.
-/
namespace FlowMachine

namespace Diagram

/-- Where the documents of a diagram go: the directory of its category and its machine id. -/
def home (x : Diagram) : String × String := (x.category.directory, Identifier.machineId x.id)

/-- The smoke suite of the first diagram has the path of the module of the second. -/
def Covers (x y : Diagram) : Prop :=
  x.category.directory = y.category.directory ∧ Identifier.machineId x.id = "Machine" ∧
    Identifier.machineId y.id = "testMachine"

theorem not_covers_self (x : Diagram) : ¬ x.Covers x := by
  rintro ⟨-, hempty, htest⟩
  rw [hempty] at htest
  exact absurd htest (by decide)

end Diagram

/-- No two documents of different diagrams have one path. -/
structure PlacesApart (tests : Bool) (diagrams : List Diagram) : Prop where
  homes : (diagrams.map Diagram.home).Nodup
  suites : tests = true → ∀ x ∈ diagrams, ∀ y ∈ diagrams, ¬ x.Covers y

namespace Document

/-- Two documents have one path exactly when they are the same document of diagrams with one home,
or a smoke suite covers a module. -/
theorem file_path_eq_iff_home {d e : Document} {o : EmitOptions} {options : DeriveOptions}
    {x y : Diagram} {directory : Path} :
    (d.file o (Machine.derive options x) directory).path =
        (e.file o (Machine.derive options y) directory).path ↔
      d = e ∧ x.home = y.home ∨ d = .smokeTests ∧ e = .machine ∧ x.Covers y ∨
        d = .machine ∧ e = .smokeTests ∧ y.Covers x := by
  rw [file_path_eq_iff, fileName_eq_iff]
  simp only [Diagram.home, Prod.mk.injEq, Diagram.Covers]
  constructor
  · rintro ⟨hdir, ⟨hdoc, hid⟩ | ⟨hd, he, hx, hy⟩ | ⟨hd, he, hy, hx⟩⟩
    · exact .inl ⟨hdoc, hdir, hid⟩
    · exact .inr (.inl ⟨hd, he, hdir, hx, hy⟩)
    · exact .inr (.inr ⟨hd, he, hdir.symm, hy, hx⟩)
  · rintro (⟨hdoc, hdir, hid⟩ | ⟨hd, he, hdir, hx, hy⟩ | ⟨hd, he, hdir, hy, hx⟩)
    · exact ⟨hdir, .inl ⟨hdoc, hid⟩⟩
    · exact ⟨hdir, .inr (.inl ⟨hd, he, hx, hy⟩)⟩
    · exact ⟨hdir.symm, .inr (.inr ⟨hd, he, hy, hx⟩)⟩

end Document

namespace Builder

variable {b : Builder} {d : Disk} {paths : List String} {o : Outcome} {diagrams : List Diagram}

/-! ## The files of a build without errors -/

/-- The directory below which all documents go. -/
def outputPath (b : Builder) : Path := (BuildSettings.pathOf b.settings.outputDir).toOption.getD {}

/-- The files of diagrams, when every document is available. -/
def filesOf (b : Builder) (diagrams : List Diagram) : List OutputFile :=
  diagrams.flatMap fun x =>
    b.documents.map fun document => document.file b.emitOptions (Machine.derive {} x) b.outputPath

/-- Steps without errors give what each of them gives on its own. -/
theorem gather_of_errors_eq_nil {α : Type} {f : α → Except Fault (List OutputFile × List Finding)}
    {xs : List α} {parts : List (List OutputFile × List Finding)} {g : α → List OutputFile}
    (h : xs.mapM f = .ok parts) (herrors : errorsOf (gather parts).2 = [])
    (hstep : ∀ x part, f x = .ok part → errorsOf part.2 = [] → part.1 = g x) :
    (gather parts).1 = xs.flatMap g := by
  rw [mapM_eq_ok] at h
  induction h with
  | nil => rfl
  | @cons x part xs parts hx _ ih =>
    have hsplit : errorsOf part.2 = [] ∧ errorsOf (gather parts).2 = [] := by
      have hboth : errorsOf (part.2 ++ (gather parts).2) = [] := herrors
      rwa [errorsOf_append, List.append_eq_nil_iff] at hboth
    show part.1 ++ (gather parts).1 = _
    rw [hstep x part hx hsplit.1, ih hsplit.2, List.flatMap_cons]

theorem emitDocument_of_errors_eq_nil {m : Machine} {document : Document}
    {part : List OutputFile × List Finding} (h : b.emitDocument m document = .ok part)
    (herrors : errorsOf part.2 = []) :
    part.1 = [document.file b.emitOptions m b.outputPath] := by
  unfold emitDocument at h
  split at h
  · cases h
    simp [errorsOf, failure, Finding.error] at herrors
  · rw [bind_eq_ok] at h
    obtain ⟨directory, hdirectory, h⟩ := h
    cases h
    rw [outputPath, hdirectory]
    rfl

theorem emit_of_errors_eq_nil {emitted : List OutputFile × List Finding}
    (h : b.emit diagrams = .ok emitted) (herrors : errorsOf emitted.2 = []) :
    emitted.1 = b.filesOf diagrams := by
  unfold emit at h
  rw [bind_eq_ok] at h
  obtain ⟨parts, hparts, h⟩ := h
  cases h
  refine gather_of_errors_eq_nil hparts herrors fun x part hpart hnone => ?_
  unfold emitMachine at hpart
  rw [bind_eq_ok] at hpart
  obtain ⟨pieces, hpieces, hpart⟩ := hpart
  cases hpart
  rw [gather_of_errors_eq_nil hpieces hnone fun document piece => emitDocument_of_errors_eq_nil]
  exact List.map_eq_flatMap.symm

theorem checkFile_of_errors_eq_nil {f : OutputFile} {part : List OutputFile × List Finding}
    (h : checkFile f = .ok part) (herrors : errorsOf part.2 = []) : part.1 = [f] := by
  unfold checkFile at h
  rw [bind_eq_ok] at h
  obtain ⟨r, hr, h⟩ := h
  cases h
  unfold Module.check at hr
  split_ifs at hr
  cases hr
  have hvalid : errorsOf (Module.findings f.kind f.content.toList) = [] := by
    refine List.filter_eq_nil_iff.mpr fun g hg herror => ?_
    have hfound : g.under f.path ∈ (errorsOf (Module.findings f.kind f.content.toList)).map
        (·.under f.path) := List.mem_map_of_mem (List.mem_filter.mpr ⟨hg, herror⟩)
    exact List.filter_eq_nil_iff.mp herrors _ (List.mem_append_left _ hfound) herror
  exact if_pos (List.isEmpty_iff.mpr hvalid)

theorem checkFiles_of_errors_eq_nil {files : List OutputFile}
    {checked : List OutputFile × List Finding}
    (h : b.checkFiles files = .ok checked) (herrors : errorsOf checked.2 = []) :
    checked.1 = files := by
  unfold checkFiles at h
  split_ifs at h
  · rw [bind_eq_ok] at h
    obtain ⟨parts, hparts, h⟩ := h
    cases h
    rw [gather_of_errors_eq_nil hparts herrors fun f part => checkFile_of_errors_eq_nil]
    exact List.flatMap_singleton' files
  · cases h
    rfl

/-- A build without errors that is not left out has all documents of all diagrams that were read. -/
theorem files_of_generate {b' : Builder} {d' : Disk} {sources : Option (List String)} {force : Bool}
    (h : (b.generate sources force).run d = ((.ok o, b'), d')) (herrors : o.errors = [])
    (hskipped : o.skipped = false) :
    ∃ paths read audited, b.resolve d sources = .ok paths ∧ b.readPaths d paths = .ok read ∧
      b.audit read.1 = .ok audited ∧ audited.errors = [] ∧ o.files = b.filesOf read.1 := by
  have hproposal {b₁ : Builder} {paths : List String} {proposal : Outcome} {go : Bool}
      {answer : Except Fault Bool} (hsettled : b.isSettled d paths force = (answer, b₁))
      (hproposed : b₁.propose d paths = .ok (proposal, go)) (hnone : proposal.errors = []) :
      ∃ read audited, b.readPaths d paths = .ok read ∧ b.audit read.1 = .ok audited ∧
        audited.errors = [] ∧ proposal.files = b.filesOf read.1 := by
    rw [propose_of_isSettled hsettled] at hproposed
    obtain ⟨read, audited, emitted, checked, hread, -, haudit, haudited, hemit, hemitted, hcheck,
      hchecked, hfiles, -⟩ := propose_of_errors_eq_nil hproposed hnone
    refine ⟨read, audited, hread, haudit, haudited, ?_⟩
    rw [hfiles, checkFiles_of_errors_eq_nil hcheck hchecked, emit_of_errors_eq_nil hemit hemitted]
  cases ends_of_generate h with
  | idle => simp [Outcome.report, errorsOf, failure, Finding.error] at herrors
  | skipped => cases hskipped
  | proposed hresolve _ hsettled hproposed =>
    obtain ⟨read, audited, hread⟩ := hproposal hsettled hproposed herrors
    exact ⟨_, read, audited, hresolve, hread⟩
  | finished hresolve _ hsettled hproposed hfinished =>
    obtain ⟨results, -, hfiles, hall, -⟩ := outcome_of_finish hfinished
    rw [herrors] at hall
    obtain ⟨hnone, -⟩ := List.append_eq_nil_iff.mp hall.symm
    obtain ⟨read, audited, hread⟩ := hproposal hsettled hproposed hnone
    rw [← hfiles] at hread
    exact ⟨_, read, audited, hresolve, hread⟩

/-! ## Names and places -/

/-- Machines that an audit finds nothing wrong with have different display names. -/
theorem nodup_displayName_of_audit {audited : Report} (h : b.audit diagrams = .ok audited)
    (herrors : audited.errors = []) (hvalidate : b.settings.validateBusinessRules.truthy = true) :
    (diagrams.map (·.displayName)).Nodup := by
  unfold audit at h
  rw [if_pos hvalidate] at h
  unfold Audit.underSettings at h
  dsimp only at h
  split at h
  · cases h
  cases h
  by_cases hempty : diagrams = []
  · simp [hempty]
  have hbatch : errorsOf (Audit.togetherFindings (diagrams.map Audit.Spec.ofDiagram)) = [] := by
    have hall : errorsOf (Audit.batchFindings b.settings.rules.toOptions
      (diagrams.map Audit.Spec.ofDiagram)) = [] := herrors
    rw [Audit.batchFindings, if_neg (by simpa using hempty), errorsOf_append,
      List.append_eq_nil_iff] at hall
    exact hall.2
  have hnames : Audit.repeatedNames [] (diagrams.map Audit.Spec.ofDiagram) = [] := by
    simp only [Audit.togetherFindings, errorsOf_append, List.append_eq_nil_iff,
      Audit.errorsOf_repeatedNames] at hbatch
    exact hbatch.1.1
  simpa [Audit.Spec.ofDiagram, Function.comp_def] using (Audit.repeatedNames_eq_nil_iff.mp hnames).1

theorem nodup_documents (b : Builder) : b.documents.Nodup := by
  refine List.Nodup.filter _ ?_
  decide

theorem machine_mem_documents (b : Builder) : .machine ∈ b.documents := by
  simp [documents, Document.all]

theorem smokeTests_mem_documents_iff :
    .smokeTests ∈ b.documents ↔ b.settings.generateTests.truthy = true := by
  simp [documents, Document.all]

/-- The paths of the documents of a diagram. -/
def pathsOf (b : Builder) (x : Diagram) : List String :=
  b.documents.map fun document =>
    (document.file b.emitOptions (Machine.derive {} x) b.outputPath).path

/-- The documents of one diagram have different paths. -/
theorem nodup_pathsOf (b : Builder) (x : Diagram) : (b.pathsOf x).Nodup := by
  refine List.Nodup.map_on (fun document _ other _ h => ?_) b.nodup_documents
  obtain ⟨hsame, -⟩ | ⟨-, -, hcovers⟩ | ⟨-, -, hcovers⟩ := Document.file_path_eq_iff_home.mp h
  · exact hsame
  · exact absurd hcovers x.not_covers_self
  · exact absurd hcovers x.not_covers_self

theorem disjoint_pathsOf_iff {x y : Diagram} : (b.pathsOf x).Disjoint (b.pathsOf y) ↔
    x.home ≠ y.home ∧ (b.settings.generateTests.truthy = true → ¬ x.Covers y ∧ ¬ y.Covers x) := by
  constructor
  · intro h
    have hmeet {document other : Document} (hdocument : document ∈ b.documents)
        (hother : other ∈ b.documents)
        (hsame : document = other ∧ x.home = y.home ∨
          document = .smokeTests ∧ other = .machine ∧ x.Covers y ∨
          document = .machine ∧ other = .smokeTests ∧ y.Covers x) : False := by
      have hx : _ ∈ b.pathsOf x := List.mem_map_of_mem hdocument
      have hy : _ ∈ b.pathsOf y := List.mem_map_of_mem hother
      rw [Document.file_path_eq_iff_home.mpr hsame] at hx
      exact h hx hy
    have hmachine := b.machine_mem_documents
    refine ⟨fun hhome => hmeet hmachine hmachine (.inl ⟨rfl, hhome⟩), fun htests => ?_⟩
    have hsmoke := smokeTests_mem_documents_iff.mpr htests
    exact ⟨fun hcovers => hmeet hsmoke hmachine (.inr (.inl ⟨rfl, rfl, hcovers⟩)),
      fun hcovers => hmeet hmachine hsmoke (.inr (.inr ⟨rfl, rfl, hcovers⟩))⟩
  · rintro ⟨hhome, hcovers⟩ path hx hy
    obtain ⟨document, hdocument, rfl⟩ := List.mem_map.mp hx
    obtain ⟨other, hother, hsame⟩ := List.mem_map.mp hy
    obtain ⟨-, h⟩ | ⟨rfl, -, h⟩ | ⟨-, rfl, h⟩ := Document.file_path_eq_iff_home.mp hsame
    · exact hhome h.symm
    · exact (hcovers (smokeTests_mem_documents_iff.mp hother)).2 h
    · exact (hcovers (smokeTests_mem_documents_iff.mp hdocument)).1 h

/-- The documents of diagrams have different paths exactly when their places are apart. -/
theorem nodup_paths_filesOf_iff : ((b.filesOf diagrams).map (·.path)).Nodup ↔
    PlacesApart b.settings.generateTests.truthy diagrams := by
  have hpaths : (b.filesOf diagrams).map (·.path) = diagrams.flatMap b.pathsOf := by
    simp only [filesOf, List.map_flatMap, List.map_map]
    rfl
  have hpairs : (diagrams.flatMap b.pathsOf).Nodup ↔ diagrams.Pairwise fun x y =>
      x.home ≠ y.home ∧ (b.settings.generateTests.truthy = true → ¬ x.Covers y ∧ ¬ y.Covers x) := by
    rw [List.nodup_flatMap]
    refine (and_iff_right fun x _ => b.nodup_pathsOf x).trans ?_
    exact List.Pairwise.iff fun x y => disjoint_pathsOf_iff
  rw [hpaths, hpairs, List.pairwise_and_iff]
  constructor
  · rintro ⟨hhomes, hcovers⟩
    refine ⟨List.pairwise_map.mpr hhomes, fun htests x hx y hy hxy => ?_⟩
    -- covering is no relation of a diagram to itself, so the order of the two does not matter
    have hboth : diagrams.Pairwise fun x y => ¬ x.Covers y ∧ ¬ y.Covers x :=
      hcovers.imp fun h => h htests
    have hsymm : Std.Symm fun x y : Diagram => ¬ x.Covers y ∧ ¬ y.Covers x := ⟨fun _ _ h => h.symm⟩
    have hself (x : Diagram) (_ : x ∈ diagrams) : ¬ x.Covers x ∧ ¬ x.Covers x :=
      ⟨x.not_covers_self, x.not_covers_self⟩
    exact (hboth.forall_of_forall hself hx hy).1 hxy
  · rintro ⟨hhomes, hcovers⟩
    refine ⟨List.pairwise_map.mp hhomes,
      List.pairwise_of_forall_mem_list fun x hx y hy htests => ?_⟩
    exact ⟨hcovers htests x hx y hy, hcovers htests y hy x hx⟩

/-- A build without errors is left out, or the machines have different display names as far as the
audit is asked for, and its files have different paths exactly when the places of the diagrams are
apart. -/
theorem nodup_paths_iff_of_generate {b' : Builder} {d' : Disk} {sources : Option (List String)}
    {force : Bool} (h : (b.generate sources force).run d = ((.ok o, b'), d'))
    (herrors : o.errors = []) :
    o.skipped = true ∧ o.files = [] ∨
      ∃ paths read, b.resolve d sources = .ok paths ∧ b.readPaths d paths = .ok read ∧
        (b.settings.validateBusinessRules.truthy = true → (read.1.map (·.displayName)).Nodup) ∧
        ((o.files.map (·.path)).Nodup ↔ PlacesApart b.settings.generateTests.truthy read.1) := by
  cases hskipped : o.skipped with
  | true =>
    obtain ⟨-, rfl, -⟩ := skipped_of_generate h hskipped
    exact .inl ⟨rfl, rfl⟩
  | false =>
    obtain ⟨paths, read, audited, hresolve, hread, haudit, haudited, hfiles⟩ :=
      files_of_generate h herrors hskipped
    refine .inr ⟨paths, read, hresolve, hread, nodup_displayName_of_audit haudit haudited, ?_⟩
    rw [hfiles]
    exact nodup_paths_filesOf_iff

/-- A disk with two sources. -/
def twoSources (first second : String) : Disk :=
  (Disk.withSource first "graph TD\nA-->B").set ["work", second]
    (.file "graph TD\nC-->D".toUTF8 500)

/-- A build of two sources. -/
def twoRun (first second : String) : (Except Fault Outcome × Builder) × Disk :=
  (modulesOnly.generate (some [first, second]) false).run (twoSources first second)

theorem twoRun_apart : (twoRun "ab.md" "c.md").1.1.toOption.any (fun o => o.errors.isEmpty &&
    !o.skipped && o.files.map (·.path) ==
      ["generated/user-services/ab_machine.py", "generated/user-services/c_machine.py"]) =
      true := by
  decide +kernel

theorem nodup_paths_iff_apart : ∃ o b' d' paths read,
    (modulesOnly.generate (some ["ab.md", "c.md"]) false).run (twoSources "ab.md" "c.md") =
      ((.ok o, b'), d') ∧ o.errors = [] ∧
    modulesOnly.readPaths (twoSources "ab.md" "c.md") paths = .ok read ∧
    (read.1.map Diagram.displayName).Nodup ∧ (o.files.map (·.path)).Nodup ∧
    PlacesApart false read.1 := by
  obtain ⟨o, hrun, ho⟩ := exists_outcome twoRun_apart
  simp only [Bool.and_eq_true, Bool.not_eq_true', beq_iff_eq, List.isEmpty_iff] at ho
  obtain ⟨⟨herrors, hskipped⟩, hpaths⟩ := ho
  have hnodup : (o.files.map (·.path)).Nodup := by
    rw [hpaths]
    decide
  obtain ⟨hleft, -⟩ | ⟨paths, read, -, hread, hnames, hiff⟩ :=
    nodup_paths_iff_of_generate hrun herrors
  · rw [hskipped] at hleft
    cases hleft
  · exact ⟨o, _, _, paths, read, hrun, herrors, hread, hnames rfl, hnodup, hiff.mp hnodup⟩

/-- Both machines go to one path, and the build has no errors. -/
theorem exists_overlap_without_errors :
    modulesOnly.settings.validateBusinessRules.truthy = true ∧
    ∃ o b' d',
      (modulesOnly.generate (some ["ab.md", "a-b.md"]) false).run (twoSources "ab.md" "a-b.md") =
        ((.ok o, b'), d') ∧ o.errors = [] ∧ ¬ (o.files.map (·.path)).Nodup := by
  have hfacts : (twoRun "ab.md" "a-b.md").1.1.toOption.any (fun o => o.errors.isEmpty &&
      o.files.map (·.path) == ["generated/user-services/ab_machine.py",
        "generated/user-services/ab_machine.py"]) = true := by
    decide +kernel
  obtain ⟨o, hrun, ho⟩ := exists_outcome hfacts
  simp only [Bool.and_eq_true, beq_iff_eq, List.isEmpty_iff] at ho
  obtain ⟨herrors, hpaths⟩ := ho
  refine ⟨rfl, o, _, _, hrun, herrors, ?_⟩
  rw [hpaths]
  decide

end Builder

end FlowMachine
