import FlowMachine.Build
import FlowMachine.Proofs.Findings
import FlowMachine.Proofs.Manifest

/-!
# What a build proposes

A proposal is made from the diagrams that could be read. It goes on to the disk only with machines
that the audit does not hold back, every file in it is a document of some machine, and when it has
no errors nothing was left out on the way.
-/
namespace FlowMachine

/-- Only a text names a path. -/
theorem BuildSettings.pathOf_eq_ok {value : Datum} {p : Path} (h : pathOf value = .ok p) :
    ∃ s, value = .text s ∧ p = .ofText s := by
  unfold pathOf at h
  split at h
  · cases h
    exact ⟨_, rfl, rfl⟩
  · cases h

namespace Builder

variable {b : Builder} {d : Disk} {paths : List String} {o o' : Outcome}

theorem render_eq_ok {diagrams : List Diagram} : b.render o diagrams = .ok o' ↔
    ∃ emitted checked, b.emit diagrams = .ok emitted ∧ b.checkFiles emitted.1 = .ok checked ∧
      o' = { o.report (emitted.2 ++ checked.2) with
        files := checked.1, machines := diagrams.length } := by
  unfold render
  simp only [bind_eq_ok, pure_eq_ok]
  constructor
  · rintro ⟨emitted, hemitted, checked, hchecked, rfl⟩
    exact ⟨emitted, checked, hemitted, hchecked, rfl⟩
  · rintro ⟨emitted, checked, hemitted, hchecked, rfl⟩
    exact ⟨emitted, hemitted, checked, hchecked, rfl⟩

/-- A proposal goes on to the disk only with machines that the audit does not hold back. -/
theorem propose_cases {go : Bool} (h : b.propose d paths = .ok (o, go)) :
    ∃ read, b.readPaths d paths = .ok read ∧
      ((read.1 = [] ∧ go = false ∧ o = (Outcome.report {} read.2).report
          [failure "No machines found in diagram sources" "sources"]) ∨
        read.1 ≠ [] ∧ ∃ audited, b.audit read.1 = .ok audited ∧
          ((audited.errors ≠ [] ∧ b.settings.blockOnErrors.truthy = true ∧ go = false ∧
              o = (Outcome.report {} read.2).report audited.findings) ∨
            (audited.errors = [] ∨ b.settings.blockOnErrors.truthy = false) ∧
              go = !b.settings.dryRun.truthy ∧
              b.render ((Outcome.report {} read.2).report audited.findings) read.1 = .ok o)) := by
  unfold propose at h
  rw [bind_eq_ok] at h
  obtain ⟨read, hread, h⟩ := h
  refine ⟨read, hread, ?_⟩
  dsimp only at h
  split_ifs at h with hempty
  · cases h
    exact .inl ⟨by simpa using hempty, rfl, rfl⟩
  · refine .inr ⟨by simpa using hempty, ?_⟩
    rw [bind_eq_ok] at h
    obtain ⟨audited, haudited, h⟩ := h
    refine ⟨audited, haudited, ?_⟩
    split_ifs at h with hblocked
    · cases h
      simp only [Bool.and_eq_true, Bool.not_eq_true', List.isEmpty_eq_false_iff] at hblocked
      exact .inl ⟨hblocked.1, hblocked.2, rfl, rfl⟩
    · rw [bind_eq_ok] at h
      obtain ⟨rendered, hrendered, h⟩ := h
      cases h
      refine .inr ⟨?_, rfl, hrendered⟩
      simpa [Decidable.or_iff_not_imp_left] using hblocked

/-- A proposal that goes on to the disk is about some machine. -/
theorem machines_of_propose (h : b.propose d paths = .ok (o, true)) : 0 < o.machines := by
  obtain ⟨read, -, ⟨-, hgo, -⟩ | ⟨hsome, audited, -, ⟨-, -, hgo, -⟩ | ⟨-, -, hrender⟩⟩⟩ :=
    propose_cases h
  · cases hgo
  · cases hgo
  · obtain ⟨emitted, checked, -, -, rfl⟩ := render_eq_ok.mp hrender
    exact List.length_pos_iff.mpr hsome

theorem not_skipped_of_propose {go : Bool} (h : b.propose d paths = .ok (o, go)) :
    o.skipped = false := by
  obtain ⟨read, -, ⟨-, -, rfl⟩ | ⟨-, audited, -, ⟨-, -, -, rfl⟩ | ⟨-, -, hrender⟩⟩⟩ :=
    propose_cases h
  · rfl
  · rfl
  · obtain ⟨emitted, checked, -, -, rfl⟩ := render_eq_ok.mp hrender
    rfl

theorem file_of_mem_emitDocument {m : Machine} {document : Document} {f : OutputFile}
    {part : List OutputFile × List Finding} (h : b.emitDocument m document = .ok part)
    (hf : f ∈ part.1) : ∃ directory, BuildSettings.pathOf b.settings.outputDir = .ok directory ∧
      f = document.file b.emitOptions m directory := by
  unfold emitDocument at h
  split at h
  · cases h
    simp at hf
  · rw [bind_eq_ok] at h
    obtain ⟨directory, hdirectory, h⟩ := h
    cases h
    exact ⟨directory, hdirectory, by simpa using hf⟩

theorem file_of_mem_emit {diagrams : List Diagram} {emitted : List OutputFile × List Finding}
    (h : b.emit diagrams = .ok emitted) {f : OutputFile} (hf : f ∈ emitted.1) :
    ∃ document x directory, BuildSettings.pathOf b.settings.outputDir = .ok directory ∧
      f = Document.file b.emitOptions (Machine.derive {} x) directory document := by
  unfold emit at h
  rw [bind_eq_ok] at h
  obtain ⟨parts, hparts, h⟩ := h
  cases h
  obtain ⟨part, hpart, hf⟩ := List.mem_flatMap.mp hf
  obtain ⟨diagram, -, hdiagram⟩ := exists_of_mem_mapM hparts hpart
  unfold emitMachine at hdiagram
  rw [bind_eq_ok] at hdiagram
  obtain ⟨pieces, hpieces, hdiagram⟩ := hdiagram
  cases hdiagram
  obtain ⟨piece, hpiece, hf⟩ := List.mem_flatMap.mp hf
  obtain ⟨document, -, hdocument⟩ := exists_of_mem_mapM hpieces hpiece
  obtain ⟨directory, hdirectory, rfl⟩ := file_of_mem_emitDocument hdocument hf
  exact ⟨document, diagram, directory, hdirectory, rfl⟩

theorem mem_of_mem_checkFiles {files : List OutputFile} {checked : List OutputFile × List Finding}
    (h : b.checkFiles files = .ok checked) {f : OutputFile} (hf : f ∈ checked.1) : f ∈ files := by
  unfold checkFiles at h
  split_ifs at h
  · rw [bind_eq_ok] at h
    obtain ⟨parts, hparts, h⟩ := h
    cases h
    obtain ⟨part, hpart, hf⟩ := List.mem_flatMap.mp hf
    obtain ⟨g, hg, hcheck⟩ := exists_of_mem_mapM hparts hpart
    unfold checkFile at hcheck
    rw [bind_eq_ok] at hcheck
    obtain ⟨r, -, hcheck⟩ := hcheck
    cases hcheck
    dsimp only at hf
    split_ifs at hf
    · obtain rfl := List.mem_singleton.mp hf
      exact hg
    · simp at hf
  · cases h
    exact hf

/-- Every file of a proposal is a document of some machine, below the output directory. -/
theorem file_of_propose {go : Bool} (h : b.propose d paths = .ok (o, go)) {f : OutputFile}
    (hf : f ∈ o.files) :
    ∃ document x directory, BuildSettings.pathOf b.settings.outputDir = .ok directory ∧
      f = Document.file b.emitOptions (Machine.derive {} x) directory document := by
  obtain ⟨read, -, ⟨-, -, rfl⟩ | ⟨-, audited, -, ⟨-, -, -, rfl⟩ | ⟨-, -, hrender⟩⟩⟩ :=
    propose_cases h
  · simp [Outcome.report] at hf
  · simp [Outcome.report] at hf
  · obtain ⟨emitted, checked, hemitted, hchecked, rfl⟩ := render_eq_ok.mp hrender
    exact file_of_mem_emit hemitted (mem_of_mem_checkFiles hchecked hf)

/-! ## Outcomes without errors -/

/-- A report hands on its errors as errors. -/
theorem errorsOf_findings_of_audit {diagrams : List Diagram} {audited : Report}
    (h : b.audit diagrams = .ok audited) : errorsOf audited.findings = audited.errors := by
  have hfiled (source : String) (fs : List Finding) :
      errorsOf (Report.ofFindings source fs).findings = (Report.ofFindings source fs).errors := by
    have hwarnings : errorsOf (warningsOf fs) = [] := by
      refine List.filter_eq_nil_iff.mpr fun f hf herror => ?_
      have hwarning : f.severity = .warning := by simpa using (List.mem_filter.mp hf).2
      simp [hwarning] at herror
    rw [Report.findings, errorsOf_append]
    simp only [Report.ofFindings, hwarnings, List.append_nil]
    simp [errorsOf, List.filter_filter]
  unfold audit at h
  split_ifs at h
  · unfold Audit.underSettings at h
    dsimp only at h
    split at h
    · cases h
    · cases h
      exact hfiled _ _
  · cases h
    rfl

/-- A proposal without errors: every source was read, the audit found nothing wrong, and so did the
emitters and the check of what they made. -/
theorem propose_of_errors_eq_nil {go : Bool} (h : b.propose d paths = .ok (o, go))
    (herrors : o.errors = []) :
    ∃ read audited emitted checked, b.readPaths d paths = .ok read ∧ errorsOf read.2 = [] ∧
      b.audit read.1 = .ok audited ∧ audited.errors = [] ∧ b.emit read.1 = .ok emitted ∧
      errorsOf emitted.2 = [] ∧ b.checkFiles emitted.1 = .ok checked ∧ errorsOf checked.2 = [] ∧
      o.files = checked.1 ∧ go = !b.settings.dryRun.truthy := by
  obtain ⟨read, hread, ⟨-, -, rfl⟩ | ⟨-, audited, haudited, hrest⟩⟩ := propose_cases h
  · simp [Outcome.report, errorsOf, failure, Finding.error] at herrors
  · have haudit := errorsOf_findings_of_audit haudited
    obtain ⟨hwrong, -, -, rfl⟩ | ⟨-, hgo, hrender⟩ := hrest
    · simp [Outcome.report, haudit, hwrong] at herrors
    · obtain ⟨emitted, checked, hemitted, hchecked, rfl⟩ := render_eq_ok.mp hrender
      simp only [Outcome.report, errorsOf_append, haudit, List.append_eq_nil_iff] at herrors
      obtain ⟨⟨⟨-, hreading⟩, hauditing⟩, hemitting, hchecking⟩ := herrors
      exact ⟨read, audited, emitted, checked, hread, hreading, haudited, hauditing,
        hemitted, hemitting, hchecked, hchecking, rfl, hgo⟩

/-- A source whose text cannot be had is reported, and has no diagrams. -/
theorem readPath_of_error {path : String} {part : List Diagram × List Finding} {fault : Fault}
    (htext : d.text (.ofText path) = .error fault) (h : b.readPath d path = .ok part) :
    part.1 = [] ∧ errorsOf part.2 ≠ [] := by
  unfold readPath ReaderSettings.sourceAt at h
  simp only [htext] at h
  split at h
  · rename_i hsource
    split at hsource
    · rename_i hok
      cases hok
    all_goals cases hsource
  · cases h
    exact ⟨rfl, by simp [errorsOf, failure, Finding.error]⟩
  · cases h

/-- A source that was read without errors is a file. -/
theorem file_of_readPath {path : String} {part : List Diagram × List Finding}
    (h : b.readPath d path = .ok part) (herrors : errorsOf part.2 = []) :
    ∃ content time, d.peek (.ofText path) = .ok (some (.file content time)) := by
  cases htext : d.text (.ofText path) with
  | ok text =>
    obtain ⟨content, time, hpeek, -⟩ := Manifest.text_eq_ok_iff.mp htext
    exact ⟨content, time, hpeek⟩
  | error fault => exact absurd herrors (readPath_of_error htext h).2

theorem file_of_readPaths {read : List Diagram × List Finding} (h : b.readPaths d paths = .ok read)
    (herrors : errorsOf read.2 = []) :
    ∀ path ∈ paths, ∃ content time, d.peek (.ofText path) = .ok (some (.file content time)) := by
  unfold readPaths at h
  rw [bind_eq_ok] at h
  obtain ⟨parts, hparts, h⟩ := h
  cases h
  intro path hpath
  obtain ⟨part, hpart, hread⟩ := exists_mem_of_mapM hparts hpath
  refine file_of_readPath hread (List.filter_eq_nil_iff.mpr fun f hf => ?_)
  exact List.filter_eq_nil_iff.mp herrors f (List.mem_flatMap.mpr ⟨part, hpart, hf⟩)

end Builder

end FlowMachine
