import FlowMachine.Proofs.Build.Overlap
import FlowMachine.Proofs.FirstPlaces

/-!
# A batch is its sources one by one

Sources meet in the audit alone, and an audit that blocks nothing decides no file. Every other stage
of a build can be cut where a list of sources is cut, and what the two parts give is put together
again. A dry run of several sources therefore proposes what it proposes for each of them alone, in
order.
-/
namespace FlowMachine

/-! ## Traversals in two parts -/

/-- A traversal succeeds, and its parts are put together to `all`. -/
def Gathers {ε α β γ : Type} (f : α → Except ε (List β × List γ)) (xs : List α)
    (all : List β × List γ) : Prop :=
  ∃ parts, xs.mapM f = .ok parts ∧ (parts.flatMap Prod.fst, parts.flatMap Prod.snd) = all

theorem gathers_nil {ε α β γ : Type} {f : α → Except ε (List β × List γ)} {all : List β × List γ} :
    Gathers f [] all ↔ all = ([], []) := by
  unfold Gathers
  simp only [List.mapM_nil, pure_eq_ok, exists_eq_left', List.flatMap_nil]
  exact eq_comm

theorem gathers_append {ε α β γ : Type} {f : α → Except ε (List β × List γ)} {xs ys : List α}
    {all : List β × List γ} : Gathers f (xs ++ ys) all ↔
      ∃ u v, Gathers f xs u ∧ Gathers f ys v ∧ (u.1 ++ v.1, u.2 ++ v.2) = all := by
  unfold Gathers
  simp only [List.mapM_append, bind_eq_ok, pure_eq_ok]
  constructor
  · rintro ⟨_, ⟨us, hus, vs, hvs, rfl⟩, rfl⟩
    refine ⟨_, _, ⟨us, hus, rfl⟩, ⟨vs, hvs, rfl⟩, ?_⟩
    rw [List.flatMap_append, List.flatMap_append]
  · rintro ⟨_, _, ⟨us, hus, rfl⟩, ⟨vs, hvs, rfl⟩, rfl⟩
    refine ⟨us ++ vs, ⟨us, hus, vs, hvs, rfl⟩, ?_⟩
    rw [List.flatMap_append, List.flatMap_append]

/-! ## Plain sources -/

namespace Sources

/-- A source that stands for itself: it is no pattern, and it names no directory. -/
structure Plain (d : Disk) (source : String) : Prop where
  literal : Wildcard.isPattern source.toList = false
  notDirectory : d.isDirectory (.ofText source) ≠ .ok true

variable {d : Disk} {sources paths : List String}

/-- A check that finds plain sources. -/
def isPlain (d : Disk) (source : String) : Bool :=
  !Wildcard.isPattern source.toList && (d.isDirectory (.ofText source)).toOption == some false

theorem plain_of_isPlain {source : String} (h : isPlain d source = true) : Plain d source := by
  simp only [isPlain, Bool.and_eq_true, Bool.not_eq_true', beq_iff_eq] at h
  refine ⟨h.1, ?_⟩
  rw [eq_ok_of_toOption h.2]
  simp

theorem Plain.filesOf_eq_ok {source : String} (h : Plain d source) {found : List String} :
    filesOf d source = .ok found ↔ d.isDirectory (.ofText source) = .ok false ∧
      found = [source] := by
  unfold filesOf
  rw [if_neg (by simp [h.literal])]
  cases hdir : d.isDirectory (.ofText source) with
  | error fault => simp [bind, Except.bind]
  | ok there =>
    cases there with
    | false =>
      show (pure [source] : Except Fault (List String)) = .ok found ↔ _
      rw [pure_eq_ok, eq_comm]
      simp
    | true => exact absurd hdir h.notDirectory

/-- Plain sources resolve to themselves, each once, unless the disk refuses to look at one of
them. -/
theorem resolve_eq_ok_of_plain (h : ∀ s ∈ sources, Plain d s) : resolve d sources = .ok paths ↔
    (∀ s ∈ sources, d.isDirectory (.ofText s) = .ok false) ∧ paths = sources.eraseDups := by
  have heach : ∀ {found}, sources.mapM (filesOf d) = .ok found ↔
      (∀ s ∈ sources, d.isDirectory (.ofText s) = .ok false) ∧ found = sources.map ([·]) := by
    induction sources with
    | nil =>
      intro found
      rw [List.mapM_nil, pure_eq_ok, eq_comm]
      simp
    | cons s sources ih =>
      intro found
      obtain ⟨hs, hrest⟩ := List.forall_mem_cons.mp h
      simp only [List.mapM_cons, bind_eq_ok, pure_eq_ok, hs.filesOf_eq_ok, ih hrest,
        List.forall_mem_cons, List.map_cons]
      constructor
      · rintro ⟨_, ⟨hdir, rfl⟩, _, ⟨hall, rfl⟩, rfl⟩
        exact ⟨⟨hdir, hall⟩, rfl⟩
      · rintro ⟨⟨hdir, hall⟩, rfl⟩
        exact ⟨_, ⟨hdir, rfl⟩, _, ⟨hall, rfl⟩, rfl⟩
  have hflat : (sources.map ([·])).flatten = sources := by
    rw [← List.flatMap_def]
    exact List.flatMap_singleton' sources
  unfold resolve
  simp only [bind_eq_ok, pure_eq_ok, heach]
  constructor
  · rintro ⟨_, ⟨hall, rfl⟩, rfl⟩
    exact ⟨hall, by rw [hflat]⟩
  · rintro ⟨hall, rfl⟩
    exact ⟨_, ⟨hall, rfl⟩, by rw [hflat]⟩

end Sources

namespace Builder

variable {b : Builder} {d : Disk} {xs ys : List Diagram} {paths more : List String}
  {files : List OutputFile}

/-! ## The stages of a build -/

theorem readPaths_eq_ok {read : List Diagram × List Finding} :
    b.readPaths d paths = .ok read ↔ Gathers (b.readPath d) paths read := by
  unfold readPaths Gathers
  simp only [bind_eq_ok, pure_eq_ok]

theorem emit_eq_ok {emitted : List OutputFile × List Finding} :
    b.emit xs = .ok emitted ↔
      Gathers (fun x => b.emitMachine (Machine.derive {} x)) xs emitted := by
  unfold emit Gathers
  simp only [bind_eq_ok, pure_eq_ok, gather]

/-- A check that is not asked for keeps every file. -/
theorem checkFiles_eq_ok {checked : List OutputFile × List Finding} :
    b.checkFiles files = .ok checked ↔
    if b.settings.checkGeneratedCode.truthy then Gathers checkFile files checked
    else (files, []) = checked := by
  unfold checkFiles Gathers
  split_ifs <;> simp only [bind_eq_ok, pure_eq_ok, gather]

theorem checkFiles_append {fs gs : List OutputFile} {checked : List OutputFile × List Finding} :
    b.checkFiles (fs ++ gs) = .ok checked ↔ ∃ u v, b.checkFiles fs = .ok u ∧
      b.checkFiles gs = .ok v ∧ (u.1 ++ v.1, u.2 ++ v.2) = checked := by
  simp only [checkFiles_eq_ok]
  split_ifs
  · exact gathers_append
  · simp

/-- Categories are no trouble together exactly when they are none apart. -/
theorem allowedFault?_append {s : RuleSettings} {cs cs' : List String} :
    s.allowedFault? (cs ++ cs') = none ↔ s.allowedFault? cs = none ∧
      s.allowedFault? cs' = none := by
  have hite {p q : Prop} [Decidable p] [Decidable q] (fault? : Option Fault) :
      (if p ∨ q then fault? else none) = none ↔
        (if p then fault? else none) = none ∧ (if q then fault? else none) = none := by
    by_cases hp : p <;> by_cases hq : q <;> simp [hp, hq]
  unfold RuleSettings.allowedFault?
  dsimp only
  split
  · simp
  · simp only [List.any_append, Bool.or_eq_true, hite]
  · simp only [List.any_append, Bool.or_eq_true, hite]
  · cases cs <;> simp

/-- The audit comes to an end. -/
def Auditable (b : Builder) (diagrams : List Diagram) : Prop :=
  ∃ audited, b.audit diagrams = .ok audited

theorem auditable_iff : b.Auditable xs ↔ (b.settings.validateBusinessRules.truthy = true →
    b.settings.rules.allowedFault? (Audit.givenCategories (xs.map Audit.Spec.ofDiagram)) =
    none) := by
  unfold Auditable audit Audit.underSettings
  split_ifs with hrules
  · dsimp only
    split
    · rename_i hfault
      simp [hrules, hfault]
    · rename_i hnone
      simp [hnone]
  · simp [hrules, pure_eq_ok]

theorem auditable_append : b.Auditable (xs ++ ys) ↔ b.Auditable xs ∧ b.Auditable ys := by
  have hcategories : Audit.givenCategories ((xs ++ ys).map Audit.Spec.ofDiagram) =
      Audit.givenCategories (xs.map Audit.Spec.ofDiagram) ++
        Audit.givenCategories (ys.map Audit.Spec.ofDiagram) := by
    simp [Audit.givenCategories]
  simp only [auditable_iff, hcategories, allowedFault?_append]
  exact ⟨fun h => ⟨fun hr => (h hr).1, fun hr => (h hr).2⟩, fun h hr => ⟨h.1 hr, h.2 hr⟩⟩

theorem auditable_nil : b.Auditable [] := by
  refine auditable_iff.mpr fun _ => ?_
  unfold RuleSettings.allowedFault?
  dsimp only
  split <;> rfl

/-- The audit of diagrams comes to an end, and their documents, written and checked, are `files`. -/
def Renders (b : Builder) (diagrams : List Diagram) (files : List OutputFile) : Prop :=
  b.Auditable diagrams ∧ ∃ emitted checked, b.emit diagrams = .ok emitted ∧
    b.checkFiles emitted.1 = .ok checked ∧ checked.1 = files

theorem renders_append : b.Renders (xs ++ ys) files ↔
    ∃ fs gs, b.Renders xs fs ∧ b.Renders ys gs ∧ fs ++ gs = files := by
  unfold Renders
  constructor
  · rintro ⟨haudit, emitted, checked, hemitted, hchecked, rfl⟩
    obtain ⟨hx, hy⟩ := auditable_append.mp haudit
    obtain ⟨u, v, hu, hv, rfl⟩ := gathers_append.mp (emit_eq_ok.mp hemitted)
    obtain ⟨u', v', hu', hv', rfl⟩ := checkFiles_append.mp hchecked
    exact ⟨_, _, ⟨hx, u, u', emit_eq_ok.mpr hu, hu', rfl⟩,
      ⟨hy, v, v', emit_eq_ok.mpr hv, hv', rfl⟩, rfl⟩
  · rintro ⟨_, _, ⟨hx, u, u', hu, hu', rfl⟩, ⟨hy, v, v', hv, hv', rfl⟩, rfl⟩
    have hemitted : b.emit (xs ++ ys) = .ok (u.1 ++ v.1, u.2 ++ v.2) :=
      emit_eq_ok.mpr (gathers_append.mpr ⟨u, v, emit_eq_ok.mp hu, emit_eq_ok.mp hv, rfl⟩)
    have hchecked : b.checkFiles (u.1 ++ v.1) = .ok (u'.1 ++ v'.1, u'.2 ++ v'.2) :=
      checkFiles_append.mpr ⟨u', v', hu', hv', rfl⟩
    exact ⟨auditable_append.mpr ⟨hx, hy⟩, _, _, hemitted, hchecked, rfl⟩

theorem renders_nil : b.Renders [] files ↔ files = [] := by
  have hcheck (checked : List OutputFile × List Finding) :
      b.checkFiles [] = .ok checked ↔ checked = ([], []) := by
    rw [checkFiles_eq_ok]
    split_ifs
    · exact gathers_nil
    · exact eq_comm
  unfold Renders
  constructor
  · rintro ⟨-, emitted, checked, hemitted, hchecked, rfl⟩
    rw [gathers_nil.mp (emit_eq_ok.mp hemitted)] at hchecked
    rw [(hcheck checked).mp hchecked]
  · rintro rfl
    exact ⟨auditable_nil, _, _, rfl, (hcheck _).mpr rfl, rfl⟩

/-! ## Proposals -/

/-- The builder proposes files for paths. -/
def Proposes (b : Builder) (d : Disk) (paths : List String) (files : List OutputFile) : Prop :=
  ∃ o go, b.propose d paths = .ok (o, go) ∧ o.files = files

theorem Proposes.unique {files' : List OutputFile} (h : b.Proposes d paths files)
    (h' : b.Proposes d paths files') : files = files' := by
  obtain ⟨o, go, hpropose, rfl⟩ := h
  obtain ⟨o', go', hpropose', rfl⟩ := h'
  rw [hpropose] at hpropose'
  cases hpropose'
  rfl

/-- When the audit blocks nothing, a proposal is what the diagrams that were read are rendered
to. -/
theorem proposes_iff (hopen : b.settings.blockOnErrors.truthy = false) : b.Proposes d paths files ↔
    ∃ read, b.readPaths d paths = .ok read ∧ b.Renders read.1 files := by
  constructor
  · rintro ⟨o, go, hpropose, rfl⟩
    obtain ⟨read, hread, ⟨hnone, -, rfl⟩ |
        ⟨-, audited, haudit, ⟨-, hblock, -⟩ | ⟨-, -, hrender⟩⟩⟩ :=
      propose_cases hpropose
    · exact ⟨read, hread, by rw [hnone]; exact renders_nil.mpr rfl⟩
    · simp [hopen] at hblock
    · obtain ⟨emitted, checked, hemitted, hchecked, rfl⟩ := render_eq_ok.mp hrender
      exact ⟨read, hread, ⟨audited, haudit⟩, emitted, checked, hemitted, hchecked, rfl⟩
  · rintro ⟨read, hread, hrenders⟩
    obtain ⟨⟨audited, haudit⟩, emitted, checked, hemitted, hchecked, rfl⟩ := hrenders
    have hrender (o : Outcome) : b.render o read.1 = .ok { o.report (emitted.2 ++ checked.2) with
        files := checked.1, machines := read.1.length } :=
      render_eq_ok.mpr ⟨emitted, checked, hemitted, hchecked, rfl⟩
    unfold Proposes propose
    simp only [hread, haudit, hrender, hopen, bind, Except.bind, Bool.and_false, Bool.false_eq_true,
      if_false]
    split_ifs with hnone
    · refine ⟨_, _, rfl, ?_⟩
      have hempty : b.Renders [] checked.1 :=
        ⟨auditable_nil, emitted, checked, List.isEmpty_iff.mp hnone ▸ hemitted, hchecked, rfl⟩
      rw [renders_nil.mp hempty]
      rfl
    · exact ⟨_, _, rfl, rfl⟩

theorem proposes_nil (hopen : b.settings.blockOnErrors.truthy = false) :
    b.Proposes d [] files ↔ files = [] := by
  simp only [proposes_iff hopen, readPaths_eq_ok, gathers_nil, exists_eq_left, renders_nil]

/-- A list of paths can be cut anywhere. -/
theorem proposes_append (hopen : b.settings.blockOnErrors.truthy = false) :
    b.Proposes d (paths ++ more) files ↔
      ∃ fs gs, b.Proposes d paths fs ∧ b.Proposes d more gs ∧ fs ++ gs = files := by
  simp only [proposes_iff hopen, readPaths_eq_ok]
  constructor
  · rintro ⟨read, hread, hrenders⟩
    obtain ⟨u, v, hu, hv, rfl⟩ := gathers_append.mp hread
    obtain ⟨fs, gs, hfs, hgs, rfl⟩ := renders_append.mp hrenders
    exact ⟨fs, gs, ⟨u, hu, hfs⟩, ⟨v, hv, hgs⟩, rfl⟩
  · rintro ⟨fs, gs, ⟨u, hu, hfs⟩, ⟨v, hv, hgs⟩, rfl⟩
    exact ⟨_, gathers_append.mpr ⟨u, v, hu, hv, rfl⟩, renders_append.mpr ⟨fs, gs, hfs, hgs, rfl⟩⟩

/-- The files of a list of paths are those of its paths, one after the other. -/
theorem proposes_iff_forall₂ (hopen : b.settings.blockOnErrors.truthy = false) :
    b.Proposes d paths files ↔
      ∃ parts, List.Forall₂ (fun path part => b.Proposes d [path] part) paths parts ∧
        parts.flatten = files := by
  induction paths generalizing files with
  | nil => simp [proposes_nil hopen, eq_comm]
  | cons path paths ih =>
    rw [← List.singleton_append, proposes_append hopen]
    constructor
    · rintro ⟨part, rest, hpart, hrest, rfl⟩
      obtain ⟨parts, hparts, rfl⟩ := ih.mp hrest
      exact ⟨part :: parts, .cons hpart hparts, rfl⟩
    · rintro ⟨_, hall, rfl⟩
      obtain ⟨part, parts, hpart, hparts, rfl⟩ := List.forall₂_cons_left_iff.mp hall
      exact ⟨part, parts.flatten, hpart, ih.mpr ⟨parts, hparts, rfl⟩, rfl⟩

/-! ## Dry runs -/

/-- What a build of given sources comes to. -/
def outcomeOn (b : Builder) (d : Disk) (sources : List String) (force : Bool) :
    Except Fault Outcome :=
  ((b.generate (some sources) force).run d).1.1

/-- A dry run comes to what it proposes for the paths of its sources. -/
theorem outcomeOn_dry {sources : List String} {force : Bool}
    (hdry : b.settings.dryRun.truthy = true)
    (hopen : b.settings.blockOnErrors.truthy = false) :
    (∃ o, b.outcomeOn d sources force = .ok o ∧ o.files = files) ↔
      ∃ paths, Sources.resolve d sources = .ok paths ∧ b.Proposes d paths files := by
  have hsettled (paths : List String) : b.isSettled d paths force = (.ok false, b) := by
    simp [isSettled, hdry]
  have hresolve : b.resolve d (some sources) = Sources.resolve d sources := rfl
  unfold outcomeOn
  rw [run_generate, hresolve]
  cases hpaths : Sources.resolve d sources with
  | error fault => simp
  | ok paths =>
    cases paths with
    | nil => simp [proposes_nil hopen, Outcome.report, eq_comm]
    | cons path paths =>
      simp only [hsettled, Except.ok.injEq, exists_eq_left']
      unfold Proposes
      cases hproposal : b.propose d (path :: paths) with
      | error fault => simp
      | ok proposal =>
        obtain ⟨o, go⟩ := proposal
        cases go with
        | false => simp
        | true =>
          obtain ⟨-, -, ⟨-, hgo, -⟩ | ⟨-, -, -, ⟨-, -, hgo, -⟩ | ⟨-, hgo, -⟩⟩⟩ :=
            propose_cases hproposal
          · cases hgo
          · cases hgo
          · simp [hdry] at hgo

/-- For plain sources it comes to what it proposes for the sources themselves. -/
theorem outcomeOn_plain {sources : List String} (hdry : b.settings.dryRun.truthy = true)
    (hopen : b.settings.blockOnErrors.truthy = false) (hplain : ∀ s ∈ sources, Sources.Plain d s)
    (hdistinct : sources.Nodup) (force : Bool) (files : List OutputFile) :
    (∃ o, b.outcomeOn d sources force = .ok o ∧ o.files = files) ↔
      (∀ s ∈ sources, d.isDirectory (.ofText s) = .ok false) ∧ b.Proposes d sources files := by
  rw [outcomeOn_dry hdry hopen]
  simp only [Sources.resolve_eq_ok_of_plain hplain, eraseDups_of_nodup hdistinct]
  constructor
  · rintro ⟨_, ⟨hall, rfl⟩, hproposes⟩
    exact ⟨hall, hproposes⟩
  · rintro ⟨hall, hproposes⟩
    exact ⟨sources, ⟨hall, rfl⟩, hproposes⟩

/-- A dry run that blocks nothing comes to an outcome for distinct plain sources exactly when it
does for each of them alone. Its files are then the files of the sources, one source after the
other. -/
theorem files_of_sources {sources : List String} (hdry : b.settings.dryRun.truthy = true)
    (hopen : b.settings.blockOnErrors.truthy = false) (hplain : ∀ s ∈ sources, Sources.Plain d s)
    (hdistinct : sources.Nodup) (force : Bool) :
    ((∃ o, b.outcomeOn d sources force = .ok o) ↔
        ∀ s ∈ sources, ∃ part, b.outcomeOn d [s] force = .ok part) ∧
      ∀ o parts, b.outcomeOn d sources force = .ok o →
        List.Forall₂ (fun s part => b.outcomeOn d [s] force = .ok part) sources parts →
        o.files = parts.flatMap Outcome.files := by
  have hone {s : String} (hs : s ∈ sources) (files : List OutputFile) :
      (∃ part, b.outcomeOn d [s] force = .ok part ∧ part.files = files) ↔
        d.isDirectory (.ofText s) = .ok false ∧ b.Proposes d [s] files := by
    have hplain : ∀ x ∈ [s], Sources.Plain d x := List.forall_mem_singleton.mpr (hplain s hs)
    rw [outcomeOn_plain hdry hopen hplain (List.nodup_singleton s), List.forall_mem_singleton]
  have hwhole := outcomeOn_plain hdry hopen hplain hdistinct force
  refine ⟨⟨?_, fun h => ?_⟩, fun o parts ho hparts => ?_⟩
  · rintro ⟨o, ho⟩ s hs
    obtain ⟨hdirs, hproposes⟩ := (hwhole _).mp ⟨o, ho, rfl⟩
    obtain ⟨lists, hlists, -⟩ := (proposes_iff_forall₂ hopen).mp hproposes
    have hall : (∀ s ∈ sources, ∃ files, b.Proposes d [s] files) ∧ _ :=
      (List.forall₂_and_left _ _).mp
      (hlists.imp fun s files hfiles => ⟨⟨files, hfiles⟩, hfiles⟩)
    obtain ⟨files, hfiles⟩ := hall.1 s hs
    obtain ⟨part, hpart, -⟩ := (hone hs _).mpr ⟨hdirs s hs, hfiles⟩
    exact ⟨part, hpart⟩
  · have : Nonempty Outcome := ⟨{}⟩
    choose! part hpart using h
    have heach (s : String) (hs : s ∈ sources) := (hone hs _).mp ⟨part s, hpart s hs, rfl⟩
    have hlists : List.Forall₂ (fun s files => b.Proposes d [s] files) sources
        (sources.map fun s => (part s).files) :=
      List.forall₂_map_right_iff.mpr (List.forall₂_same.mpr fun s hs => (heach s hs).2)
    obtain ⟨o, ho, -⟩ := (hwhole _).mpr
      ⟨fun s hs => (heach s hs).1, (proposes_iff_forall₂ hopen).mpr ⟨_, hlists, rfl⟩⟩
    exact ⟨o, ho⟩
  · have hlists : List.Forall₂ (fun s files => b.Proposes d [s] files) sources
        (parts.map Outcome.files) := by
      refine List.forall₂_map_right_iff.mpr
        (((List.forall₂_and_left _ _).mpr ⟨fun s hs => hs, hparts⟩).imp fun s part h => ?_)
      exact ((hone h.1 _).mp ⟨part, h.2, rfl⟩).2
    have hproposes := (proposes_iff_forall₂ hopen).mpr ⟨_, hlists, rfl⟩
    rw [← List.flatMap_def] at hproposes
    exact ((hwhole _).mp ⟨o, ho, rfl⟩).2.unique hproposes

/-- A builder that proposes machine modules and writes nothing. -/
def preview : Builder where
  settings := { modulesOnly.settings with dryRun := .bool true }

/-- A source that is missing stands between two others. -/
theorem files_of_sources_missing : ∃ o parts,
    preview.outcomeOn (twoSources "a.md" "b.md") ["a.md", "none.md", "b.md"] false = .ok o ∧
    List.Forall₂ (fun s part => preview.outcomeOn (twoSources "a.md" "b.md") [s] false = .ok part)
      ["a.md", "none.md", "b.md"] parts ∧
    parts.map (fun part => part.files.map (·.path)) =
      [["generated/user-services/a_machine.py"], [], ["generated/user-services/b_machine.py"]] ∧
    o.files = parts.flatMap Outcome.files := by
  have hfacts : ["a.md", "none.md", "b.md"].all (Sources.isPlain (twoSources "a.md" "b.md")) =
      true := by
    decide
  have hplain : ∀ s ∈ ["a.md", "none.md", "b.md"], Sources.Plain (twoSources "a.md" "b.md") s :=
    fun s hs => Sources.plain_of_isPlain (List.all_eq_true.mp hfacts s hs)
  have hpaths (s : String) (paths : List String) :
      (preview.outcomeOn (twoSources "a.md" "b.md") [s] false).toOption.any
        (fun part => part.files.map (·.path) == paths) = true →
      ∃ part, preview.outcomeOn (twoSources "a.md" "b.md") [s] false = .ok part ∧
        part.files.map (·.path) = paths := by
    intro h
    obtain ⟨part, hpart, hfiles⟩ := (Option.any_eq_true _ _).mp h
    exact ⟨part, eq_ok_of_toOption hpart, beq_iff_eq.mp hfiles⟩
  obtain ⟨first, hfirst, hfiles₁⟩ :=
    hpaths "a.md" ["generated/user-services/a_machine.py"] (by decide +kernel)
  obtain ⟨none, hnone, hfiles₂⟩ := hpaths "none.md" [] (by decide)
  obtain ⟨second, hsecond, hfiles₃⟩ :=
    hpaths "b.md" ["generated/user-services/b_machine.py"] (by decide +kernel)
  obtain ⟨hreturns, hfiles⟩ := files_of_sources (b := preview) rfl rfl hplain (by decide) false
  obtain ⟨o, ho⟩ := hreturns.mpr (by simp [hfirst, hnone, hsecond])
  have hparts : List.Forall₂ (fun s part => preview.outcomeOn (twoSources "a.md" "b.md") [s] false =
      .ok part) ["a.md", "none.md", "b.md"] [first, none, second] :=
    .cons hfirst (.cons hnone (.cons hsecond .nil))
  exact ⟨o, _, ho, hparts, by simp [hfiles₁, hfiles₂, hfiles₃], hfiles o _ ho hparts⟩

end Builder

end FlowMachine
