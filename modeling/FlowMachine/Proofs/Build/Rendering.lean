import FlowMachine.Proofs.Build.Covering
import FlowMachine.Proofs.Build.Overlap
import FlowMachine.Proofs.Diagram.Characters
import FlowMachine.Proofs.Emit.Documents

/-!
# What a text is rendered to

Rendering a text touches no disk. It gives every document of every machine in the text, in order.
The check of the written modules reads all of them: whatever texts a diagram has, its documents are
modules. The check itself fails at a null character, in the path of a file or in its text, and
nothing else keeps a text from being rendered.
-/
namespace FlowMachine

/-- A null character stands in the path or in the text of the file. -/
def OutputFile.HasNul (f : OutputFile) : Prop :=
  Char.ofNat 0 ∈ f.path.toList ∨ Char.ofNat 0 ∈ f.content.toList

/-- The text of the file can be read as a module. -/
def OutputFile.isReadable (f : OutputFile) : Bool := (Module.read f.content.toList).isOk

namespace Module

theorem check_eq_ok {f : OutputFile} {r : Report} :
    check f = .ok r ↔ ¬ f.HasNul ∧ r = .ofFindings f.path (findings f.kind f.content.toList) := by
  unfold check OutputFile.HasNul
  split_ifs with hpath hcontent
  · simp_all
  · simp_all
  · simp_all [eq_comm]

/-- A text has errors exactly when it cannot be read. -/
theorem isEmpty_errorsOf_findings (f : OutputFile) :
    (errorsOf (findings f.kind f.content.toList)).isEmpty = f.isReadable := by
  unfold findings OutputFile.isReadable
  cases read f.content.toList with
  | error m => rfl
  | ok outline =>
    refine List.isEmpty_iff.mpr (List.filter_eq_nil_iff.mpr fun x hx => ?_)
    cases hkind : f.kind with
    | machine =>
      simp only [hkind] at hx
      obtain ⟨name, -, rfl⟩ := List.mem_map.mp hx
      simp [Finding.warning]
    | test =>
      simp only [hkind] at hx
      split_ifs at hx
      · obtain rfl := List.mem_singleton.mp hx
        simp [Finding.warning]
      · cases hx
    | demo => simp [hkind] at hx
    | service => simp [hkind] at hx

end Module

namespace Builder

variable {b : Builder} {diagrams : List Diagram}

/-- The settings have values of the kinds that they are meant to have, and every document can be
written. -/
structure Ready (b : Builder) : Prop where
  limit : (Limit.ofDatum? b.settings.reader.maxLabelLength).isSome
  directory : ∃ s, b.settings.outputDir = .text s
  available : ∀ document, b.unavailable document = none

/-- The source that a text is read to. -/
def sourceOf (b : Builder) (text : String) (name : Option String) : Source :=
  let labelLimit := (Limit.ofDatum? b.settings.reader.maxLabelLength).getD ⟨0, ""⟩
  Source.read ⟨b.settings.reader.placeholderForEmpty.truthy, labelLimit⟩ text name none

theorem Ready.readSource (hb : b.Ready) (text : String) (name : Option String) :
    b.settings.reader.readSource text name none = .ok (b.sourceOf text name) := by
  obtain ⟨limit, hlimit⟩ := Option.isSome_iff_exists.mp hb.limit
  simp [ReaderSettings.readSource, sourceOf, hlimit]

/-! ## Writing all documents -/

theorem Ready.emitDocument (hb : b.Ready) (m : Machine) (document : Document) :
    b.emitDocument m document = .ok ([document.file b.emitOptions m b.outputPath], []) := by
  obtain ⟨s, hs⟩ := hb.directory
  simp [Builder.emitDocument, hb.available, outputPath, hs, BuildSettings.pathOf, Except.toOption]

/-- Steps of which none fails and none finds anything give what each of them gives on its own. -/
theorem mapM_files {α : Type} {f : α → Except Fault (List OutputFile × List Finding)}
    {g : α → List OutputFile} (hstep : ∀ x, f x = .ok (g x, [])) (xs : List α) :
    (do return gather (← xs.mapM f)) = Except.ok (ε := Fault) (xs.flatMap g, []) := by
  have hparts : xs.mapM f = .ok (xs.map fun x => (g x, [])) := by
    rw [mapM_eq_ok, List.forall₂_map_right_iff]
    exact List.forall₂_same.mpr fun x _ => hstep x
  rw [hparts]
  simp [gather, List.flatMap_map, bind, Except.bind, pure, Except.pure]

theorem Ready.emit (hb : b.Ready) (diagrams : List Diagram) :
    b.emit diagrams = .ok (b.filesOf diagrams, []) := by
  refine mapM_files (fun x => ?_) diagrams
  unfold emitMachine
  rw [mapM_files (hb.emitDocument _), List.map_eq_flatMap]

/-! ## Checking them -/

/-- The check of a file fails at null characters only, and keeps the file if it can be read. -/
theorem checkFile_eq_ok {f : OutputFile} {part : List OutputFile × List Finding}
    (h : checkFile f = .ok part) : ¬ f.HasNul ∧ part.1 = [f].filter OutputFile.isReadable := by
  unfold checkFile at h
  rw [bind_eq_ok] at h
  obtain ⟨r, hr, h⟩ := h
  cases h
  obtain ⟨hnul, rfl⟩ := Module.check_eq_ok.mp hr
  refine ⟨hnul, ?_⟩
  have hvalid : (Report.ofFindings f.path (Module.findings f.kind f.content.toList)).isValid =
      f.isReadable := Module.isEmpty_errorsOf_findings f
  cases hread : f.isReadable <;> simp [hvalid, hread]

theorem exists_checkFile {f : OutputFile} (h : ¬ f.HasNul) : ∃ part, checkFile f = .ok part := by
  refine ⟨_, bind_eq_ok.mpr ⟨_, Module.check_eq_ok.mpr ⟨h, rfl⟩, rfl⟩⟩

/-- The check can be made: it is not asked for, or no file has a null character. -/
def Checkable (b : Builder) (files : List OutputFile) : Prop :=
  b.settings.checkGeneratedCode.truthy = true → ∀ f ∈ files, ¬ f.HasNul

theorem exists_checkFiles_iff {files : List OutputFile} :
    (∃ checked, b.checkFiles files = .ok checked) ↔ b.Checkable files := by
  unfold checkFiles Checkable
  cases b.settings.checkGeneratedCode.truthy with
  | false => simp [pure, Except.pure]
  | true =>
    constructor
    · rintro ⟨checked, hchecked⟩ - f hf
      obtain ⟨parts, hparts, -⟩ := bind_eq_ok.mp hchecked
      obtain ⟨part, -, hpart⟩ := exists_mem_of_mapM hparts hf
      exact (checkFile_eq_ok hpart).1
    · intro h
      obtain ⟨parts, hparts⟩ := exists_mapM fun f hf => exists_checkFile (h rfl f hf)
      exact ⟨_, bind_eq_ok.mpr ⟨parts, hparts, rfl⟩⟩

/-- The check keeps the files that can be read, in order. -/
theorem files_of_checkFiles {files : List OutputFile} {checked : List OutputFile × List Finding}
    (hcheck : b.settings.checkGeneratedCode.truthy = true) (h : b.checkFiles files = .ok checked) :
    checked.1 = files.filter OutputFile.isReadable := by
  unfold checkFiles at h
  rw [if_pos hcheck, bind_eq_ok] at h
  obtain ⟨parts, hparts, h⟩ := h
  cases h
  rw [mapM_eq_ok] at hparts
  induction hparts with
  | nil => rfl
  | @cons f part files parts hpart _ ih =>
    show part.1 ++ (gather parts).1 = _
    rw [(checkFile_eq_ok hpart).2, ih, ← List.filter_append]
    rfl

/-! ## Rendering a text -/

theorem Ready.renderText_eq (hb : b.Ready) (text : String) (name : Option String) :
    b.renderText text name = b.render (.report {} (b.sourceOf text name).findings)
      (b.sourceOf text name).diagrams := by
  rw [renderText, hb.readSource]
  rfl

theorem exists_renderText_iff (hb : b.Ready) (text : String) (name : Option String) :
    (∃ o, b.renderText text name = .ok o) ↔
      b.Checkable (b.filesOf (b.sourceOf text name).diagrams) := by
  rw [← exists_checkFiles_iff, hb.renderText_eq]
  constructor
  · rintro ⟨o, ho⟩
    obtain ⟨emitted, checked, hemitted, hchecked, -⟩ := render_eq_ok.mp ho
    cases (hb.emit _).symm.trans hemitted
    exact ⟨checked, hchecked⟩
  · rintro ⟨checked, hchecked⟩
    exact ⟨_, render_eq_ok.mpr ⟨_, checked, hb.emit _, hchecked, rfl⟩⟩

/-! ## Which files can be checked -/

/-- The check of the files of well-formed diagrams fails at what null characters the diagrams
have. -/
theorem checkable_iff (hdiagrams : ∀ d ∈ diagrams, d.WellFormed) :
    b.Checkable (b.filesOf diagrams) ↔
    (b.settings.checkGeneratedCode.truthy = true → ∀ d ∈ diagrams,
    d.IsClear ∧ ∀ part ∈ b.outputPath.parts, NulFree part) := by
  refine forall_congr' fun _ => ⟨fun h d hd => ?_, fun h f hf => ?_⟩
  · have hmachine : Document.machine ∈ b.documents := by simp [documents, Document.all]
    have hfile := h _ (List.mem_flatMap.mpr ⟨d, hd, List.mem_map_of_mem hmachine⟩)
    rw [OutputFile.HasNul, not_or, Document.content_file, Document.text] at hfile
    exact ⟨isClear_of_machineModule hfile.2, (Document.machine.nulFree_path _ d _).mp hfile.1⟩
  · obtain ⟨d, hd, hf⟩ := List.mem_flatMap.mp hf
    obtain ⟨document, -, rfl⟩ := List.mem_map.mp hf
    obtain ⟨hclear, hpath⟩ := h d hd
    have hcontent :=
      (document.isModule_text (Machine.printable_derive (hdiagrams d hd) hclear) b.emitOptions
      1000 rfl).clear
    rw [OutputFile.HasNul, not_or, Document.content_file]
    exact ⟨(document.nulFree_path _ d _).mpr hpath, hcontent⟩

/-- All documents of a diagram without null characters can be read. -/
theorem isReadable_of_isClear {f : OutputFile}
    (hdiagrams : ∀ d ∈ diagrams, d.WellFormed ∧ d.IsClear)
    (hf : f ∈ b.filesOf diagrams) : f.isReadable = true := by
  obtain ⟨d, hd, hf⟩ := List.mem_flatMap.mp hf
  obtain ⟨document, -, rfl⟩ := List.mem_map.mp hf
  obtain ⟨hformed, hclear⟩ := hdiagrams d hd
  obtain ⟨o, ho⟩ :=
    (document.isModule_text (Machine.printable_derive hformed hclear) b.emitOptions 1000 rfl).reads
  rw [OutputFile.isReadable, Document.content_file, ho]
  rfl

/-- What a rendering text has no null characters in has none in its diagrams. -/
theorem isClear_of_mem_sourceOf {text : String} {name : Option String} {d : Diagram}
    (htext : NulFree text)
    (hname : ∀ s ∈ name, NulFree s) (hd : d ∈ (b.sourceOf text name).diagrams) : d.IsClear := by
  have hlabels := Source.isLabeled_of_mem_read (p := (· ≠ Char.ofNat 0)) hd
    (fun c hc heq => htext (heq ▸ hc))
    (fun id hid c hc heq => Machine.nulFree_of_isTame (Machine.isTame_of_isStateName hid)
      (heq ▸ hc)) (List.all_iff_forall_prop.mp (by decide))
  obtain ⟨n, hid⟩ := Source.exists_index_of_mem_read hd
  have hbase : NulFree (Source.baseName name) := by
    unfold Source.baseName
    split
    · decide
    · split_ifs
      · decide
      · exact hname _ rfl
  have hshown : NulFree (Identifier.displayName d.id) :=
    nulFree_displayName (hid ▸ nulFree_blockId hbase n)
  refine ⟨?_, ?_, fun n hn hmem => hlabels n hn _ hmem rfl⟩
  · rw [Machine.derive]
    dsimp only
    split_ifs
    · exact hshown
    · rwa [Source.displayName_of_mem_read hd]
  · have hpath : (Machine.derive {} d).sourcePath = none := by
      rw [Machine.derive]
      exact Source.sourcePath_of_mem_read hd
    rw [Emit.sourceName, hpath]
    decide

/-- A text is rendered unless the check meets a null character: in the output directory, or in a
name or a label of a diagram. The files are then all documents of all diagrams, in order. In
particular every text is rendered that has no null character itself, under a name and to a directory
without any. -/
theorem renderText_of_ready (hb : b.Ready) (text : String) (name : Option String) :
    (∀ o, b.renderText text name = .ok o → o.machines = (b.sourceOf text name).diagrams.length ∧
      o.files = b.filesOf (b.sourceOf text name).diagrams) ∧
    ((∃ o, b.renderText text name = .ok o) ↔ (b.settings.checkGeneratedCode.truthy = true →
      ∀ d ∈ (b.sourceOf text name).diagrams, d.IsClear ∧
      ∀ part ∈ b.outputPath.parts, NulFree part)) ∧
    (NulFree text → (∀ s ∈ name, NulFree s) → (∀ part ∈ b.outputPath.parts, NulFree part) →
      ∃ o, b.renderText text name = .ok o) := by
  have hformed : ∀ d ∈ (b.sourceOf text name).diagrams, d.WellFormed := fun d hd =>
    Source.wellFormed_of_mem_read hd
  have hrendered := (exists_renderText_iff hb text name).trans (checkable_iff hformed)
  refine ⟨fun o ho => ?_, hrendered, fun htext hname hdirectory => ?_⟩
  · have hclear := hrendered.mp ⟨o, ho⟩
    rw [hb.renderText_eq] at ho
    obtain ⟨emitted, checked, hemitted, hchecked, rfl⟩ := render_eq_ok.mp ho
    cases (hb.emit _).symm.trans hemitted
    refine ⟨rfl, ?_⟩
    by_cases hcheck : b.settings.checkGeneratedCode.truthy = true
    · have hall := hclear hcheck
      show checked.1 = _
      rw [files_of_checkFiles hcheck hchecked, List.filter_eq_self]
      exact fun f hf => isReadable_of_isClear (fun d hd => ⟨hformed d hd, (hall d hd).1⟩) hf
    · simp only [checkFiles, if_neg hcheck] at hchecked
      cases hchecked
      rfl
  · exact hrendered.mpr fun _ d hd => ⟨isClear_of_mem_sourceOf htext hname hd, hdirectory⟩

theorem ready_default : ({} : Builder).Ready := ⟨by decide, ⟨_, rfl⟩, fun _ => rfl⟩

theorem renderText_of_ready_default :
    ∃ o, ({} : Builder).renderText "graph LR\nA --> B" none = .ok o ∧ o.machines = 1 ∧
    o.files = ({} : Builder).filesOf (({} : Builder).sourceOf "graph LR\nA --> B" none).diagrams ∧
    o.files.map (fun f => (f.path, f.document)) =
      [("generated/user-services/diagram_machine.py", "machine"),
       ("generated/user-services/test_diagram_machine.py", "smoke_tests"),
       ("generated/user-services/test_diagram_machine_transitions.py", "transition_tests"),
       ("generated/user-services/test_diagram_machine_errors.py", "error_tests"),
       ("generated/user-services/diagram_machine_demo.py", "demo"),
       ("generated/user-services/diagram_machine_service.py", "service")] := by
  obtain ⟨hfiles, -, hrendered⟩ := renderText_of_ready ready_default "graph LR\nA --> B" none
  obtain ⟨o, ho⟩ := hrendered (by decide) nofun (by decide)
  obtain ⟨hmachines, hall⟩ := hfiles o ho
  refine ⟨o, ho, hmachines.trans (by decide +kernel), hall, ?_⟩
  rw [hall]
  decide +kernel

/-! ## A machine whose name has a null character -/

theorem sample_name :
    (({} : Builder).sourceOf "graph LR\nA --> B" (some "nul\x00byte")).diagrams.any
    (fun d => (Machine.derive {} d).displayName.toList.contains (Char.ofNat 0)) = true := by
  decide +kernel

/-- The default settings render nothing for a machine whose name has a null character. -/
theorem exists_error_of_nul : ∃ fault,
    ({} : Builder).renderText "graph LR\nA --> B" (some "nul\x00byte") = .error fault := by
  obtain ⟨d, hd, hname⟩ := List.any_eq_true.mp sample_name
  cases hrender : ({} : Builder).renderText "graph LR\nA --> B" (some "nul\x00byte") with
  | error fault => exact ⟨fault, rfl⟩
  | ok o =>
    have hcheck := (exists_renderText_iff ready_default _ _).mp ⟨o, hrender⟩
    have hclear := (checkable_iff fun _ => Source.wellFormed_of_mem_read).mp hcheck rfl d hd
    exact absurd (by simpa using hname) hclear.1.name

end Builder

end FlowMachine
