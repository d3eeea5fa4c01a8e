import FlowMachine.Proofs.Build.Proposal

/-!
# Builders that propose no more than another

A builder covers another one when it reads sources alike, writes documents alike, and writes at
least the documents of the other. From sources with the same texts the other one then proposes only
files that the first one proposes. When it is no stricter either, it raises no fault where the first
one raised none.
-/
namespace FlowMachine

/-- A traversal of items that all succeed succeeds. -/
theorem exists_mapM {ε α β : Type} {f : α → Except ε β} {xs : List α}
    (h : ∀ x ∈ xs, ∃ y, f x = .ok y) : ∃ ys, xs.mapM f = .ok ys := by
  induction xs with
  | nil => exact ⟨[], rfl⟩
  | cons x xs ih =>
    obtain ⟨⟨y, hy⟩, hrest⟩ := List.forall_mem_cons.mp h
    obtain ⟨ys, hys⟩ := ih hrest
    refine ⟨y :: ys, ?_⟩
    rw [List.mapM_cons, bind_eq_ok]
    exact ⟨y, hy, bind_eq_ok.mpr ⟨ys, hys, rfl⟩⟩

/-- When each step gives part of what some given part holds, all steps together give part of all
parts. -/
theorem mapM_subset {ε α β γ : Type} {f : α → Except ε (List β × γ)} {xs : List α}
    {parts : List (List β × γ)}
    (h : ∀ x ∈ xs, ∃ part', f x = .ok part' ∧ ∃ part ∈ parts, ∀ y ∈ part'.1, y ∈ part.1) :
    ∃ parts', xs.mapM f = .ok parts' ∧ ∀ y ∈ parts'.flatMap Prod.fst,
      y ∈ parts.flatMap Prod.fst := by
  obtain ⟨parts', hparts'⟩ := exists_mapM fun x hx => (h x hx).imp fun _ hx => hx.1
  refine ⟨parts', hparts', fun y hy => ?_⟩
  obtain ⟨part', hpart', hy⟩ := List.mem_flatMap.mp hy
  obtain ⟨x, hx, hok⟩ := exists_of_mem_mapM hparts' hpart'
  obtain ⟨found, hfound, part, hpart, hsubset⟩ := h x hx
  obtain rfl := Except.ok.inj (hfound.symm.trans hok)
  exact List.mem_flatMap.mpr ⟨part, hpart, hsubset y hy⟩

namespace Builder

/-- The second builder renders what the first one does, or less of it. -/
structure Covers (b b' : Builder) : Prop where
  reader : b'.settings.reader = b.settings.reader
  directory : b'.settings.outputDir = b.settings.outputDir
  documents : ∀ document ∈ b'.documents, document ∈ b.documents
  options : b'.emitOptions = b.emitOptions
  checked : b.settings.checkGeneratedCode.truthy = true →
    b'.settings.checkGeneratedCode.truthy = true

/-- The second builder checks and audits nothing that the first one does not. -/
structure Vets (b b' : Builder) : Prop where
  checked : b'.settings.checkGeneratedCode.truthy = true →
    b.settings.checkGeneratedCode.truthy = true
  audited : b'.settings.validateBusinessRules.truthy = true →
    b.settings.validateBusinessRules.truthy = true ∧ b'.settings.rules = b.settings.rules

variable {b b' : Builder} {d d' : Disk} {paths paths' : List String} {o : Outcome}

theorem readPath_of_covers (hcovers : b.Covers b') {path : String}
    (htext : d'.text (.ofText path) = d.text (.ofText path)) :
    b'.readPath d' path = b.readPath d path := by
  have hsource : b'.settings.reader.sourceAt d' path = b.settings.reader.sourceAt d path := by
    simp only [ReaderSettings.sourceAt, hcovers.reader, htext]
  rw [readPath, hsource]
  rfl

/-- What is read from some of the sources is among what is read from all of them. -/
theorem readPaths_of_covers (hcovers : b.Covers b') {read : List Diagram × List Finding}
    (hsame : ∀ path ∈ paths', path ∈ paths ∧ d'.text (.ofText path) = d.text (.ofText path))
    (h : b.readPaths d paths = .ok read) :
    ∃ read', b'.readPaths d' paths' = .ok read' ∧ ∀ x ∈ read'.1, x ∈ read.1 := by
  unfold readPaths at h ⊢
  obtain ⟨parts, hparts, h⟩ := bind_eq_ok.mp h
  cases h
  have heach : ∀ path ∈ paths', ∃ part', b'.readPath d' path = .ok part' ∧
      ∃ part ∈ parts, ∀ x ∈ part'.1, x ∈ part.1 := by
    intro path hpath
    obtain ⟨hmem, htext⟩ := hsame path hpath
    obtain ⟨part, hpart, hread⟩ := exists_mem_of_mapM hparts hmem
    exact ⟨part, (readPath_of_covers hcovers htext).trans hread, part, hpart, fun _ h => h⟩
  obtain ⟨parts', hparts', hsubset⟩ := mapM_subset heach
  exact ⟨_, bind_eq_ok.mpr ⟨parts', hparts', rfl⟩, hsubset⟩

/-- Categories that are among others are no trouble when those are none. -/
theorem allowedFault?_of_subset {s : RuleSettings} {categories categories' : List String}
    (hsubset : ∀ c ∈ categories', c ∈ categories) (h : s.allowedFault? categories = none) :
    s.allowedFault? categories' = none := by
  unfold RuleSettings.allowedFault? at h ⊢
  have houtside (p : String → Bool) (hp : categories'.any p = true) : categories.any p = true := by
    obtain ⟨c, hc, hpc⟩ := List.any_eq_true.mp hp
    exact List.any_eq_true.mpr ⟨c, hsubset c hc, hpc⟩
  dsimp only at h ⊢
  split at h
  · rfl
  · split_ifs with hany
    · rwa [if_pos (houtside _ hany)] at h
    · rfl
  · split_ifs with hany
    · rwa [if_pos (houtside _ hany)] at h
    · rfl
  · split_ifs with hempty
    · rfl
    · obtain ⟨c, hc⟩ := List.exists_mem_of_ne_nil _ (by simpa using hempty)
      rw [if_neg (by simpa using List.ne_nil_of_mem (hsubset c hc))] at h
      cases h

theorem audit_of_vets (hvets : b.Vets b') {diagrams diagrams' : List Diagram} {audited : Report}
    (hsubset : ∀ x ∈ diagrams', x ∈ diagrams) (h : b.audit diagrams = .ok audited) :
    ∃ audited', b'.audit diagrams' = .ok audited' := by
  unfold audit at h ⊢
  split_ifs with hrules
  · obtain ⟨hrules', hsame⟩ := hvets.audited hrules
    rw [if_pos hrules'] at h
    unfold Audit.underSettings at h ⊢
    rw [hsame]
    dsimp only at h ⊢
    split at h
    · cases h
    · rename_i hnone
      have hnone' : b.settings.rules.allowedFault?
          (Audit.givenCategories (diagrams'.map Audit.Spec.ofDiagram)) = none := by
        refine allowedFault?_of_subset (fun c hc => ?_) hnone
        obtain ⟨hc, hsome⟩ := List.mem_filter.mp hc
        obtain ⟨spec, hspec, hcategory⟩ := List.mem_filterMap.mp hc
        obtain ⟨x, hx, rfl⟩ := List.mem_map.mp hspec
        refine List.mem_filter.mpr ⟨List.mem_filterMap.mpr ⟨_, ?_, hcategory⟩, hsome⟩
        exact List.mem_map_of_mem (hsubset x hx)
      rw [hnone']
      exact ⟨_, rfl⟩
  · exact ⟨_, rfl⟩

theorem emitDocument_of_covers (hcovers : b.Covers b') (m : Machine) (document : Document) :
    b'.emitDocument m document = b.emitDocument m document := by
  have hunavailable : b'.unavailable = b.unavailable :=
    congrArg EmitOptions.unavailable hcovers.options
  unfold emitDocument
  rw [hunavailable, hcovers.directory, hcovers.options]

theorem emitMachine_of_covers (hcovers : b.Covers b') {m : Machine}
    {part : List OutputFile × List Finding}
    (h : b.emitMachine m = .ok part) :
    ∃ part', b'.emitMachine m = .ok part' ∧ ∀ f ∈ part'.1, f ∈ part.1 := by
  unfold emitMachine at h ⊢
  obtain ⟨parts, hparts, h⟩ := bind_eq_ok.mp h
  cases h
  have heach : ∀ document ∈ b'.documents, ∃ part', b'.emitDocument m document = .ok part' ∧
      ∃ part ∈ parts, ∀ f ∈ part'.1, f ∈ part.1 := by
    intro document hdocument
    obtain ⟨part, hpart, hemit⟩ := exists_mem_of_mapM hparts (hcovers.documents document hdocument)
    exact ⟨part, (emitDocument_of_covers hcovers m document).trans hemit, part, hpart, fun _ h => h⟩
  obtain ⟨parts', hparts', hsubset⟩ := mapM_subset heach
  exact ⟨_, bind_eq_ok.mpr ⟨parts', hparts', rfl⟩, hsubset⟩

theorem emit_of_covers (hcovers : b.Covers b') {diagrams diagrams' : List Diagram}
    {emitted : List OutputFile × List Finding} (hsubset : ∀ x ∈ diagrams', x ∈ diagrams)
    (h : b.emit diagrams = .ok emitted) :
    ∃ emitted', b'.emit diagrams' = .ok emitted' ∧ ∀ f ∈ emitted'.1, f ∈ emitted.1 := by
  unfold emit at h ⊢
  obtain ⟨parts, hparts, h⟩ := bind_eq_ok.mp h
  cases h
  have heach : ∀ x ∈ diagrams', ∃ part', b'.emitMachine (Machine.derive {} x) = .ok part' ∧
      ∃ part ∈ parts, ∀ f ∈ part'.1, f ∈ part.1 := by
    intro x hx
    obtain ⟨part, hpart, hemit⟩ := exists_mem_of_mapM hparts (hsubset x hx)
    obtain ⟨part', hemit', hfiles⟩ := emitMachine_of_covers hcovers hemit
    exact ⟨part', hemit', part, hpart, hfiles⟩
  obtain ⟨parts', hparts', hfiles⟩ := mapM_subset heach
  exact ⟨_, bind_eq_ok.mpr ⟨parts', hparts', rfl⟩, hfiles⟩

/-- Checking part of some files keeps part of what is kept of all. -/
theorem mem_checkFiles_of_covers (hcovers : b.Covers b') {files files' : List OutputFile}
    {checked checked' : List OutputFile × List Finding} (hsubset : ∀ f ∈ files', f ∈ files)
    (h : b.checkFiles files = .ok checked) (h' : b'.checkFiles files' = .ok checked') :
    ∀ f ∈ checked'.1, f ∈ checked.1 := by
  intro f hf
  by_cases hcheck : b.settings.checkGeneratedCode.truthy = true
  · unfold checkFiles at h h'
    rw [if_pos hcheck] at h
    rw [if_pos (hcovers.checked hcheck)] at h'
    obtain ⟨parts, hparts, h⟩ := bind_eq_ok.mp h
    cases h
    obtain ⟨parts', hparts', h'⟩ := bind_eq_ok.mp h'
    cases h'
    obtain ⟨part, hpart, hf⟩ := List.mem_flatMap.mp hf
    obtain ⟨g, hg, hcheck⟩ := exists_of_mem_mapM hparts' hpart
    obtain ⟨same, hsame, hagain⟩ := exists_mem_of_mapM hparts (hsubset g hg)
    obtain rfl := Except.ok.inj (hcheck.symm.trans hagain)
    exact List.mem_flatMap.mpr ⟨part, hsame, hf⟩
  · have hmem := hsubset f (mem_of_mem_checkFiles h' hf)
    unfold checkFiles at h
    rw [if_neg hcheck] at h
    cases h
    exact hmem

theorem checkFiles_of_vets (hvets : b.Vets b') {files files' : List OutputFile}
    {checked : List OutputFile × List Finding} (hsubset : ∀ f ∈ files', f ∈ files)
    (h : b.checkFiles files = .ok checked) : ∃ checked', b'.checkFiles files' = .ok checked' := by
  unfold checkFiles at h ⊢
  split_ifs with hcheck
  · rw [if_pos (hvets.checked hcheck)] at h
    obtain ⟨parts, hparts, -⟩ := bind_eq_ok.mp h
    have heach : ∀ f ∈ files', ∃ part, checkFile f = .ok part := fun f hf =>
      (exists_mem_of_mapM hparts (hsubset f hf)).imp fun _ hpart => hpart.2
    obtain ⟨parts', hparts'⟩ := exists_mapM heach
    exact ⟨_, bind_eq_ok.mpr ⟨parts', hparts', rfl⟩⟩
  · exact ⟨_, rfl⟩

/-- What a builder that goes on to the disk has read, written and checked. -/
theorem stages_of_propose (h : b.propose d paths = .ok (o, true)) :
    ∃ read audited emitted checked, b.readPaths d paths = .ok read ∧ b.audit read.1 = .ok audited ∧
      b.emit read.1 = .ok emitted ∧ b.checkFiles emitted.1 = .ok checked ∧ o.files = checked.1 := by
  obtain ⟨read, hread, ⟨-, hgo, -⟩ | ⟨-, audited, haudit, ⟨-, -, hgo, -⟩ | ⟨-, -, hrender⟩⟩⟩ :=
    propose_cases h
  · cases hgo
  · cases hgo
  · obtain ⟨emitted, checked, hemitted, hchecked, rfl⟩ := render_eq_ok.mp hrender
    exact ⟨read, audited, emitted, checked, hread, haudit, hemitted, hchecked, rfl⟩

/-- A builder that is covered proposes, from sources with the same texts, only files that the other
one proposes. -/
theorem mem_propose_of_covers (hcovers : b.Covers b') {o' : Outcome} {go : Bool}
    (hsame : ∀ path ∈ paths', path ∈ paths ∧ d'.text (.ofText path) = d.text (.ofText path))
    (h : b.propose d paths = .ok (o, true)) (h' : b'.propose d' paths' = .ok (o', go)) :
    ∀ f ∈ o'.files, f ∈ o.files := by
  obtain ⟨read, -, emitted, checked, hread, -, hemitted, hchecked, hfiles⟩ := stages_of_propose h
  obtain ⟨read', hread', hdiagrams⟩ := readPaths_of_covers hcovers hsame hread
  obtain ⟨emitted', hemitted', hsubset⟩ := emit_of_covers hcovers hdiagrams hemitted
  obtain ⟨found, hfound, ⟨-, -, rfl⟩ | ⟨-, audited, -, ⟨-, -, -, rfl⟩ | ⟨-, -, hrender⟩⟩⟩ :=
    propose_cases h'
  · simp [Outcome.report]
  · simp [Outcome.report]
  · obtain rfl := Except.ok.inj (hfound.symm.trans hread')
    obtain ⟨written, kept, hwritten, hkept, rfl⟩ := render_eq_ok.mp hrender
    obtain rfl := Except.ok.inj (hwritten.symm.trans hemitted')
    rw [hfiles]
    exact mem_checkFiles_of_covers hcovers hsubset hchecked hkept

/-- A builder that is covered and is no stricter proposes something where the other one does. -/
theorem exists_propose_of_covers (hcovers : b.Covers b') (hvets : b.Vets b')
    (hsame : ∀ path ∈ paths', path ∈ paths ∧ d'.text (.ofText path) = d.text (.ofText path))
    (h : b.propose d paths = .ok (o, true)) : ∃ o' go, b'.propose d' paths' = .ok (o', go) := by
  obtain ⟨read, audited, emitted, checked, hread, haudit, hemitted, hchecked, -⟩ :=
    stages_of_propose h
  obtain ⟨read', hread', hdiagrams⟩ := readPaths_of_covers hcovers hsame hread
  obtain ⟨audited', haudit'⟩ := audit_of_vets hvets hdiagrams haudit
  obtain ⟨emitted', hemitted', hsubset⟩ := emit_of_covers hcovers hdiagrams hemitted
  obtain ⟨checked', hchecked'⟩ := checkFiles_of_vets hvets hsubset hchecked
  have hrender (o : Outcome) : ∃ o', b'.render o read'.1 = .ok o' :=
    ⟨_, render_eq_ok.mpr ⟨emitted', checked', hemitted', hchecked', rfl⟩⟩
  unfold propose
  simp only [hread', bind, Except.bind, haudit']
  split_ifs
  · exact ⟨_, _, rfl⟩
  · exact ⟨_, _, rfl⟩
  · obtain ⟨o', ho'⟩ := hrender ((Outcome.report {} read'.2).report audited'.findings)
    rw [ho']
    exact ⟨_, _, rfl⟩

end Builder

end FlowMachine
