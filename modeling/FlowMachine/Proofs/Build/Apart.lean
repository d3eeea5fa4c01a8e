import FlowMachine.Proofs.Build.Rendering
import FlowMachine.Proofs.Diagram.Numbering

/-!
# Files of one source

The diagrams of one source have machine ids of their own, as their blocks are numbered, and none of
them covers another. So the files that a text is rendered to have paths of their own. Each of them
lies in the directory of a category below the output directory, under a plain name, whatever the
name of the source is.
-/
namespace FlowMachine

open FlowMachine.Text FlowMachine.Identifier

/-- A name of small letters, digits and underscores, with the ending of modules. -/
def IsModuleFile (name : String) : Prop :=
  ∃ stem : String, stem ≠ "" ∧ stem.toList.all isSnakeChar = true ∧ name = stem ++ ".py"

/-- The path of a file leads into the directory of a category below an output directory, and names a
module there. -/
def LiesBelow (directory : Path) (path : String) : Prop :=
  ∃ folder ∈ ["information", "user-services", "agent", "core"], ∃ name, IsModuleFile name ∧
    path = (⟨directory.root, directory.parts ++ [folder, name]⟩ : Path).toText ∧
    Path.ofText path = ⟨directory.root, directory.parts ++ [folder, name]⟩

/-! ## Where documents lie -/

namespace Document

theorem isModuleFile_fileName (document : Document) (name : String) :
    IsModuleFile (document.fileName (snake name)) := by
  obtain ⟨tail, htail, hsnake⟩ : ∃ tail : String, document.ending = tail ++ ".py" ∧
      tail.toList.all isSnakeChar = true := by
    cases document with
    | machine => exact ⟨"", by decide⟩
    | smokeTests => exact ⟨"", by decide⟩
    | transitionTests => exact ⟨"_transitions", by decide⟩
    | errorTests => exact ⟨"_errors", by decide⟩
    | demo => exact ⟨"_demo", by decide⟩
    | service => exact ⟨"_service", by decide⟩
  have hlead : document.lead.toList.all isSnakeChar = true := by cases document <;> decide
  have hname : (snake name).toList.all isSnakeChar = true :=
    List.all_eq_true.mpr fun c hc => isSnakeChar_of_mem_snake hc
  obtain ⟨c, rest, hfirst, -⟩ := exists_toList_snake name
  refine ⟨document.lead ++ snake name ++ tail, fun hempty => ?_, ?_, ?_⟩
  · have hchars := congrArg String.toList hempty
    simp [hfirst] at hchars
  · simp [hlead, hname, hsnake]
  · rw [fileName_eq, htail, ← String.append_assoc]

theorem liesBelow_file (document : Document) (o : EmitOptions) (options : DeriveOptions)
    (x : Diagram)
    (place : String) :
    LiesBelow (.ofText place)
      (document.file o (Machine.derive options x) (.ofText place)).path := by
  have hfolder : x.category.directory ∈ ["information", "user-services", "agent", "core"] := by
    cases x.category <;> decide
  refine ⟨_, hfolder, _, isModuleFile_fileName document (machineId x.id), ?_, ?_⟩
  · rw [path_file, path_derive]
  · rw [path_file, path_derive]
    refine Path.ofText_toText (Path.root_ofText place) (fun part hpart => ?_) (by simp)
    rcases List.mem_append.mp hpart with hpart | hpart
    · exact Path.isPart_of_mem_ofText hpart
    · simp only [List.mem_cons, List.not_mem_nil, or_false] at hpart
      rcases hpart with rfl | rfl
      · exact isPart_directory x.category
      · exact isPart_fileName document (machineId x.id)

end Document

/-! ## The diagrams of one source are apart -/

namespace Source

variable {options : ReadOptions} {path : Option String} {text : String} {name : Option String}

/-- Only the first diagram of a source can be without a stem, and the stems of all others end in a
digit, so that none of them is `test`. -/
theorem not_covers_of_mem_read {x y : Diagram} (hx : x ∈ (read options text name path).diagrams)
    (hy : y ∈ (read options text name path).diagrams) : ¬ x.Covers y := by
  rintro ⟨-, hempty, htest⟩
  obtain ⟨m, hm⟩ := exists_index_of_mem_read hx
  obtain ⟨n, hn⟩ := exists_index_of_mem_read hy
  have hxstem : machineStem x.id.toList = [] :=
    machineStem_of_machineId_eq (y := "") (hempty.trans (by decide))
  have hystem : machineStem y.id.toList = "test".toList :=
    machineStem_of_machineId_eq (y := "test") (htest.trans (by decide))
  have hfirst : m = 0 := by
    cases m with
    | zero => rfl
    | succ m =>
      rw [hm, machineStem_blockId_succ, List.append_eq_nil_iff] at hxstem
      exact absurd hxstem.2 Nat.toDigits_ne_nil
  cases n with
  | zero =>
    rw [hn, ← hfirst, ← hm, hxstem] at hystem
    cases hystem
  | succ n =>
    rw [hn, machineStem_blockId_succ] at hystem
    have hlast := congrArg List.getLast? hystem
    rw [List.getLast?_append_of_ne_nil _ Nat.toDigits_ne_nil] at hlast
    have hdigit := isDigits_toDigits (n + 2) 't' (List.mem_of_getLast? hlast)
    exact absurd hdigit (by decide)

theorem placesApart_read (tests : Bool) :
    PlacesApart tests (read options text name path).diagrams where
  homes := by
    refine List.Nodup.of_map Prod.snd ?_
    rw [List.map_map]
    exact nodup_machineId_read text name
  suites := fun _ _ hx _ hy => not_covers_of_mem_read hx hy

end Source

theorem ReaderSettings.readSource_eq_ok {s : ReaderSettings} {text : String}
    {name path : Option String} {source : Source} (h : s.readSource text name path = .ok source) :
    ∃ options, source = Source.read options text name path := by
  unfold ReaderSettings.readSource at h
  split at h
  · cases h
    exact ⟨_, rfl⟩
  · split_ifs at h
    cases h
    exact ⟨_, rfl⟩

namespace Builder

variable {b : Builder} {diagrams : List Diagram}

/-! ## What is emitted and checked -/

/-- Steps that each give part of a list give part of all lists together, in order. -/
theorem gather_sublist {α : Type} {f : α → Except Fault (List OutputFile × List Finding)}
    {g : α → List OutputFile} {xs : List α} {parts : List (List OutputFile × List Finding)}
    (h : xs.mapM f = .ok parts) (hstep : ∀ x part, f x = .ok part → part.1.Sublist (g x)) :
    (gather parts).1.Sublist (xs.flatMap g) := by
  rw [mapM_eq_ok] at h
  induction h with
  | nil => exact List.Sublist.refl _
  | @cons x part xs parts hx _ ih =>
    rw [List.flatMap_cons]
    exact (hstep x part hx).append ih

theorem emit_sublist {g : Machine → Document → List OutputFile}
    {emitted : List OutputFile × List Finding} (h : b.emit diagrams = .ok emitted)
    (hstep : ∀ m document part, b.emitDocument m document = .ok part →
      part.1.Sublist (g m document)) :
    emitted.1.Sublist
      (diagrams.flatMap fun x => b.documents.flatMap (g (Machine.derive {} x))) := by
  unfold emit at h
  obtain ⟨parts, hparts, h⟩ := bind_eq_ok.mp h
  cases h
  refine gather_sublist hparts fun x part hpart => ?_
  unfold emitMachine at hpart
  obtain ⟨pieces, hpieces, hpart⟩ := bind_eq_ok.mp hpart
  cases hpart
  exact gather_sublist hpieces (hstep _)

/-- Files are only emitted below an output directory, and then they are among the files of the
diagrams. -/
theorem emit_cases {emitted : List OutputFile × List Finding} (h : b.emit diagrams = .ok emitted) :
    emitted.1 = [] ∨ ∃ place, b.settings.outputDir = .text place ∧
      emitted.1.Sublist (b.filesOf diagrams) := by
  cases hdir : BuildSettings.pathOf b.settings.outputDir with
  | error e =>
    have hnone := emit_sublist (g := fun _ _ => []) h fun m document part hpart => by
      unfold emitDocument at hpart
      split at hpart
      · cases hpart
        exact List.Sublist.refl _
      · rw [hdir] at hpart
        cases hpart
    have hempty : diagrams.flatMap (fun _ => b.documents.flatMap fun _ => ([] : List OutputFile)) =
        [] :=
      List.flatMap_eq_nil_iff.mpr fun _ _ => List.flatMap_eq_nil_iff.mpr fun _ _ => rfl
    rw [hempty, List.sublist_nil] at hnone
    exact .inl hnone
  | ok directory =>
    refine .inr ?_
    obtain ⟨place, hplace, -⟩ := BuildSettings.pathOf_eq_ok hdir
    refine ⟨place, hplace, ?_⟩
    have hfiles :=
      emit_sublist (g := fun m document => [document.file b.emitOptions m b.outputPath]) h
      fun m document part hpart => by
        unfold emitDocument at hpart
        split at hpart
        · cases hpart
          exact List.nil_sublist _
        · rw [hdir] at hpart
          cases hpart
          rw [outputPath, hdir]
          exact List.Sublist.refl _
    simpa only [filesOf, List.map_eq_flatMap] using hfiles

theorem checkFiles_sublist {files : List OutputFile} {checked : List OutputFile × List Finding}
    (h : b.checkFiles files = .ok checked) : checked.1.Sublist files := by
  by_cases hcheck : b.settings.checkGeneratedCode.truthy = true
  · rw [files_of_checkFiles hcheck h]
    exact List.filter_sublist
  · simp only [checkFiles, if_neg hcheck] at h
    cases h
    exact List.Sublist.refl _

/-! ## The files of a text -/

/-- The files that a text is rendered to have different paths, and every one of them lies below the
output directory, in the directory of a category and under the name of a module. -/
theorem paths_of_renderText {text : String} {name : Option String} {o : Outcome}
    (h : b.renderText text name = .ok o) :
    (o.files.map (·.path)).Nodup ∧
      ∀ f ∈ o.files, ∃ place, b.settings.outputDir = .text place ∧
      LiesBelow (.ofText place) f.path := by
  obtain ⟨source, hsource, hrender⟩ := bind_eq_ok.mp h
  obtain ⟨options, rfl⟩ := ReaderSettings.readSource_eq_ok hsource
  obtain ⟨emitted, checked, hemit, hcheck, rfl⟩ := render_eq_ok.mp hrender
  have hkept := checkFiles_sublist hcheck
  obtain hnone | ⟨place, hplace, hfiles⟩ := emit_cases hemit
  · rw [hnone, List.sublist_nil] at hkept
    simp [hkept]
  · have hall := hkept.trans hfiles
    refine ⟨(nodup_paths_filesOf_iff.mpr (Source.placesApart_read _)).sublist (hall.map _), ?_⟩
    intro f hf
    obtain ⟨x, -, hx⟩ := List.mem_flatMap.mp (hall.subset hf)
    obtain ⟨document, -, rfl⟩ := List.mem_map.mp hx
    have hdirectory : b.outputPath = .ofText place := by
      rw [outputPath, hplace]
      rfl
    rw [hdirectory]
    exact ⟨place, hplace, Document.liesBelow_file document _ _ x place⟩

/-- A builder of modules and smoke suites that does not check what it writes. -/
def suitesOnly : Builder where
  settings := {
    includeTransitionTests := .bool false
    includeErrorTests := .bool false
    generateDemos := .bool false
    generateServices := .bool false
    checkGeneratedCode := .bool false }

/-- A name that leads upwards and has no letters but `machine`, so that its stem is empty. -/
theorem paths_of_renderText_upwards : ∃ o,
    suitesOnly.renderText "graph LR\nA --> B\ngraph LR\nC" (some "../é Machine.") = .ok o ∧
    o.files.map (·.path) = ["generated/user-services/machine.py",
      "generated/user-services/test_machine.py", "generated/user-services/machine2_machine.py",
      "generated/user-services/test_machine2_machine.py"] ∧
    (o.files.map (·.path)).Nodup ∧ ∀ f ∈ o.files, ∃ place,
      suitesOnly.settings.outputDir = .text place ∧ LiesBelow (.ofText place) f.path := by
  have hready : suitesOnly.Ready := ⟨by decide, ⟨_, rfl⟩, fun _ => rfl⟩
  obtain ⟨o, ho⟩ := (exists_renderText_iff hready "graph LR\nA --> B\ngraph LR\nC"
    (some "../é Machine.")).mpr fun hcheck => by cases hcheck
  refine ⟨o, ho, ?_, paths_of_renderText ho⟩
  have hpaths : (suitesOnly.renderText "graph LR\nA --> B\ngraph LR\nC"
      (some "../é Machine.")).toOption.any (fun o => o.files.map (·.path) ==
      ["generated/user-services/machine.py", "generated/user-services/test_machine.py",
        "generated/user-services/machine2_machine.py",
        "generated/user-services/test_machine2_machine.py"]) = true := by
    decide +kernel
  rw [ho] at hpaths
  simpa [Except.toOption] using hpaths

end Builder

end FlowMachine
