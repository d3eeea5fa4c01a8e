import FlowMachine.Command.Validate
import FlowMachine.Number.Total
import FlowMachine.Proofs.Lint.Strictness
import FlowMachine.Proofs.Success
import Mathlib.Data.List.TakeWhile

/-!
# Exit codes of the validation command

The exit code depends on what is found alone: printing counts all findings, shown or not. A file
that has no errors in strict mode has the same report without it, so strict mode fails on every file
that fails without it, and is content with exactly the files about which nothing is said.
-/
namespace FlowMachine

/-! ## The audit does not look at strict mode -/

namespace Audit

variable (o : CheckOptions) (strict : Bool)

theorem stateFindingsFrom_strict (id : String) (before states : List State) :
    stateFindingsFrom { o with strict } id before states =
      stateFindingsFrom o id before states := by
  induction states generalizing before with
  | nil => rfl
  | cons s rest ih => exact congrArg (stateFindings o id before s ++ ·) (ih (before ++ [s]))

theorem machineFindings_strict (spec : Spec) :
    machineFindings { o with strict } spec = machineFindings o spec := by
  have hstates : allStateFindings { o with strict } spec = allStateFindings o spec := by
    unfold allStateFindings
    dsimp only
    rw [stateFindingsFrom_strict]
  unfold machineFindings
  rw [hstates]
  rfl

theorem check_strict (specs : List Spec) (source : String) :
    check { o with strict } specs source = check o specs source := by
  unfold check batchFindings
  rw [funext (machineFindings_strict o strict)]

end Audit

namespace Command.Validate

/-! ## What printing counts -/

theorem total_eq_zero_iff {ns : List Nat} : total ns = 0 ↔ ∀ n ∈ ns, n = 0 := by
  induction ns with
  | nil => simp
  | cons n ns ih => simp [ih]

section Tally

variable (o : Options)

@[simp]
theorem errors_add (t : Tally) (r : Report) : (t.add o r).errors = t.errors + r.errors.length := by
  unfold Tally.add
  split_ifs with h
  · simp_all
  · rfl

@[simp]
theorem warnings_add (t : Tally) (r : Report) :
    (t.add o r).warnings = t.warnings + r.warnings.length := by
  unfold Tally.add
  split_ifs with h
  · simp_all
  · rfl

theorem errors_foldl_add (rs : List Report) (t : Tally) :
    (rs.foldl (Tally.add o) t).errors = t.errors + total (rs.map fun r => r.errors.length) := by
  induction rs generalizing t with
  | nil => rfl
  | cons r rs ih => simp [ih, Nat.add_assoc]

theorem warnings_foldl_add (rs : List Report) (t : Tally) :
    (rs.foldl (Tally.add o) t).warnings =
      t.warnings + total (rs.map fun r => r.warnings.length) := by
  induction rs generalizing t with
  | nil => rfl
  | cons r rs ih => simp [ih, Nat.add_assoc]

theorem errors_printReports_eq_zero {rs : List Report} :
    (printReports o rs).errors = 0 ↔ ∀ r ∈ rs, r.errors = [] := by
  simp [printReports, errors_foldl_add, total_eq_zero_iff]

theorem warnings_printReports_eq_zero {rs : List Report} :
    (printReports o rs).warnings = 0 ↔ ∀ r ∈ rs, r.warnings = [] := by
  simp [printReports, warnings_foldl_add, total_eq_zero_iff]

end Tally

theorem exitCode_ne_one {strict : Bool} {t : Tally} : exitCode strict t ≠ 1 ↔ t.errors = 0 := by
  unfold exitCode
  split_ifs <;> omega

theorem exitCode_true_eq_zero {t : Tally} :
    exitCode true t = 0 ↔ t.errors = 0 ∧ t.warnings = 0 := by
  unfold exitCode
  simp only [Bool.true_and, decide_eq_true_eq]
  split_ifs with herrors hwarnings
  · exact ⟨nofun, fun h => absurd h.1 (Nat.ne_of_gt herrors)⟩
  · exact ⟨nofun, fun h => absurd h.2 (Nat.ne_of_gt hwarnings)⟩
  · omega

/-! ## Files and exit codes -/

/-- The code with which a run ends its process. A fault ends it with the code for errors. -/
def exitStatus : Except Fault Exit → Nat
  | .ok exit => exit.code
  | .error _ => 1

/-- The file is reported on without errors. -/
def Passes (o : CheckOptions) (d : Disk) (path : String) : Prop :=
  ∃ r, checkPath o d path = .ok r ∧ r.errors = []

/-- The file is reported on without errors and without warnings. -/
def Spotless (o : CheckOptions) (d : Disk) (path : String) : Prop :=
  ∃ r, checkPath o d path = .ok r ∧ r.errors = [] ∧ r.warnings = []

section Run

variable {d : Disk} {args : List String} {g : Given}

theorem exitStatus_run (h : grammar.readAll args = .ok g) :
    exitStatus (run d args) =
      match g.words.mapM (checkPath (options g).check d) with
      | .ok reports => exitCode (options g).strict (printReports (options g) reports)
      | .error _ => 1 := by
  unfold run
  rw [h]
  dsimp only
  cases g.words.mapM (checkPath (options g).check d) <;> rfl

/-- A run ends without the code for errors exactly when all files pass. -/
theorem exitStatus_ne_one (h : grammar.readAll args = .ok g) :
    exitStatus (run d args) ≠ 1 ↔ ∀ path ∈ g.words, Passes (options g).check d path := by
  rw [exitStatus_run h]
  refine .trans ?_ exists_mapM_eq_ok
  cases g.words.mapM (checkPath (options g).check d) with
  | error fault => simp
  | ok reports => simp [exitCode_ne_one, errors_printReports_eq_zero]

/-- A strict run is content exactly when nothing is said about any file. -/
theorem exitStatus_eq_zero (h : grammar.readAll args = .ok g)
    (hstrict : (options g).strict = true) :
    exitStatus (run d args) = 0 ↔ ∀ path ∈ g.words, Spotless (options g).check d path := by
  rw [exitStatus_run h, hstrict]
  refine .trans ?_ exists_mapM_eq_ok
  cases g.words.mapM (checkPath (options g).check d) with
  | error fault => simp
  | ok reports =>
    simp [exitCode_true_eq_zero, errors_printReports_eq_zero,
      warnings_printReports_eq_zero, forall_and]

end Run

/-! ## Strict mode -/

section Strict

variable {d : Disk} {path : String}

/-- Options that say the same about the text of a file say the same about the file. -/
theorem checkFile_of_check {o o' : Lint.Options} {r : Report} (h : Lint.checkFile o d path = .ok r)
    (hcheck : ∀ text, Lint.check o text path = r → Lint.check o' text path = r) :
    Lint.checkFile o' d path = .ok r := by
  unfold Lint.checkFile at h ⊢
  split at h
  · next text _ => exact congrArg Except.ok (hcheck text (Except.ok.inj h))
  · exact h
  · exact h
  · exact h
  · exact h

theorem auditFile_strict (o : CheckOptions) (strict : Bool) :
    auditFile { o with strict } d path = auditFile o d path := by
  unfold auditFile
  simp only [Audit.check_strict]

/-- The report on a file begins with that of the lint, and apart from that strict mode changes
nothing. -/
theorem checkPath_of_checkFile {o : CheckOptions} {strict strict' : Bool} {r : Report}
    (h : checkPath { o with strict } d path = .ok r)
    (hlint : ∀ linted, Lint.checkFile ⟨strict, o.naming⟩ d path = .ok linted →
      linted.errors <+: r.errors → linted.warnings <+: r.warnings →
      Lint.checkFile ⟨strict', o.naming⟩ d path = .ok linted) :
    checkPath { o with strict := strict' } d path = .ok r := by
  obtain ⟨linted, hlinted, hrest⟩ := bind_eq_ok.mp h
  have hfront : linted.errors <+: r.errors ∧ linted.warnings <+: r.warnings := by
    split at hrest
    · cases hrest
      exact ⟨List.prefix_rfl, List.prefix_rfl⟩
    · obtain ⟨audited, -, hmerged⟩ := bind_eq_ok.mp hrest
      cases hmerged
      exact ⟨List.prefix_append _ _, List.prefix_append _ _⟩
  refine bind_eq_ok.mpr ⟨linted, hlint linted hlinted hfront.1 hfront.2, ?_⟩
  rw [auditFile_strict] at hrest ⊢
  exact hrest

/-- A file that passes in strict mode has the same report without it. -/
theorem checkPath_of_strict {o : CheckOptions} {r : Report}
    (h : checkPath { o with strict := true } d path = .ok r) (herrors : r.errors = []) :
    checkPath { o with strict := false } d path = .ok r := by
  refine checkPath_of_checkFile h fun linted hlinted hfront _ => ?_
  refine checkFile_of_check hlinted fun text htext => ?_
  rw [herrors, List.prefix_nil] at hfront
  subst htext
  exact (Lint.check_strict_of_valid _ hfront).symm

/-- A file about which nothing is said has the same report in strict mode. -/
theorem checkPath_of_spotless {o : CheckOptions} {r : Report}
    (h : checkPath { o with strict := false } d path = .ok r) (herrors : r.errors = [])
    (hwarnings : r.warnings = []) : checkPath { o with strict := true } d path = .ok r := by
  refine checkPath_of_checkFile h fun linted hlinted hfront hfront' => ?_
  refine checkFile_of_check hlinted fun text htext => ?_
  rw [herrors, List.prefix_nil] at hfront
  rw [hwarnings, List.prefix_nil] at hfront'
  subst htext
  exact Lint.check_strict_of_spotless _ hfront hfront'

theorem passes_of_strict {o : CheckOptions} (h : Passes { o with strict := true } d path) :
    Passes { o with strict := false } d path := by
  obtain ⟨r, hr, herrors⟩ := h
  exact ⟨r, checkPath_of_strict hr herrors, herrors⟩

theorem spotless_strict {o : CheckOptions} :
    Spotless { o with strict := true } d path ↔ Spotless { o with strict := false } d path := by
  constructor
  · rintro ⟨r, hr, herrors, hwarnings⟩
    exact ⟨r, checkPath_of_strict hr herrors, herrors, hwarnings⟩
  · rintro ⟨r, hr, herrors, hwarnings⟩
    exact ⟨r, checkPath_of_spotless hr herrors hwarnings, herrors, hwarnings⟩

end Strict

/-! ## Arguments -/

/-- The arguments ask for a check of files under options. -/
def Asks (args : List String) (o : Options) (files : List String) : Prop :=
  ∃ g, grammar.readAll args = .ok g ∧ options g = o ∧ g.words = files

section Flags

/-- The flags of the command that stand for options. -/
def flagNames : List String := ["--strict", "--quiet", "--no-color", "--no-business-rules"]

/-- The flags that turn options on, in the order of the help. -/
def Options.flags (o : Options) : List String :=
  flagNames.filter fun name =>
    (name == "--strict" && o.strict) || (name == "--quiet" && o.quiet) ||
      (name == "--no-color" && !o.color) || (name == "--no-business-rules" && !o.business)

/-- A flag as it is understood. -/
def senseOfFlag (name : String) : String × Sense := (name, .option ⟨[name], .flag⟩ name none)

/-- Files behind a divider as they are understood. -/
def sensesOfFiles (files : List String) : List (String × Sense) :=
  ("--", .divider) :: files.map (·, .word)

variable {files : List String}

theorem senses_flags {names : List String} (h : ∀ name ∈ names, name ∈ flagNames) :
    grammar.senses (names ++ "--" :: files) =
      .ok (names.map senseOfFlag ++ sensesOfFiles files) := by
  induction names with
  | nil => rfl
  | cons name names ih =>
    have hname : ∀ name ∈ flagNames, name ≠ "--" ∧
        grammar.sense name = .ok (senseOfFlag name).2 := by
      decide +kernel
    obtain ⟨hdivider, hsense⟩ := hname name (h name List.mem_cons_self)
    rw [List.cons_append, Grammar.senses, if_neg (by simpa using hdivider), hsense,
      ih fun other hother => h other (List.mem_cons_of_mem _ hother)]
    rfl

/-- The command takes any words. -/
theorem forIn_checkChoice (words : List String) :
    (forIn words PUnit.unit fun word _ => do
      grammar.checkChoice grammar.words.name grammar.words.choices word
      pure (ForInStep.yield PUnit.unit)) = (.ok PUnit.unit : Except Stop PUnit) := by
  induction words with
  | nil => rfl
  | cons word words ih =>
    rw [List.forIn_cons]
    exact ih

theorem takeWords_files (given : Given) :
    grammar.takeWords given ("--" :: files) = .ok { given with words := files } := by
  have harity : (grammar.words.arity == .command) = false := rfl
  unfold Grammar.takeWords
  dsimp only
  rw [harity, if_neg Bool.false_ne_true, List.erase_cons_head, if_neg Bool.false_ne_true,
    forIn_checkChoice]
  rfl

theorem takeWhile_sensesOfFiles :
    (sensesOfFiles files).takeWhile (fun a => !Grammar.isOption a.2) = sensesOfFiles files := by
  refine List.takeWhile_eq_self_iff.mpr fun a ha => ?_
  rcases List.mem_cons.mp ha with rfl | ha
  · rfl
  · obtain ⟨file, -, rfl⟩ := List.mem_map.mp ha
    rfl

theorem wordCount_sensesOfFiles (hfiles : files ≠ []) :
    Grammar.wordCount .atLeastOne (sensesOfFiles files) = some (sensesOfFiles files).length := by
  obtain ⟨file, rest, rfl⟩ := List.exists_cons_of_ne_nil hfiles
  unfold Grammar.wordCount
  rw [takeWhile_sensesOfFiles]
  simp [sensesOfFiles]

theorem take_flags (names : List String) (hfiles : files ≠ []) {fuel : Nat}
    (hfuel : names.length < fuel)
    (given : Given) (hextras : given.extras = []) :
    grammar.take fuel true given (names.map senseOfFlag ++ sensesOfFiles files) =
      .ok ({ given with flags := names.reverse ++ given.flags, words := files }, false) := by
  induction names generalizing fuel given with
  | nil =>
    obtain ⟨fuel, rfl⟩ := Nat.exists_eq_add_of_lt hfuel
    obtain ⟨flags, values, words, extras⟩ := given
    cases hextras
    have harity : grammar.words.arity = .atLeastOne := rfl
    have hwords : (sensesOfFiles files).map Prod.fst = "--" :: files := by
      simp [sensesOfFiles, Function.comp_def]
    rw [List.map_nil, List.nil_append, List.length_nil, Nat.zero_add, Grammar.take]
    dsimp only
    rw [takeWhile_sensesOfFiles, List.drop_length, if_pos rfl, harity,
      wordCount_sensesOfFiles hfiles]
    dsimp only
    rw [List.take_length, List.drop_length, hwords, takeWords_files]
    rfl
  | cons name names ih =>
    obtain ⟨fuel, rfl⟩ := Nat.exists_eq_add_of_lt hfuel
    obtain ⟨flags, values, words, extras⟩ := given
    cases hextras
    rw [List.reverse_cons, List.append_assoc, Grammar.take]
    exact @ih (names.length + 1 + fuel) (by omega) ⟨name :: flags, values, words, []⟩ rfl

/-- All options can be asked for, and with them any files. -/
theorem asks_flags (o : Options) (hfiles : files ≠ []) :
    Asks (o.flags ++ "--" :: files) o files := by
  have hnames : ∀ name ∈ o.flags, name ∈ flagNames := fun name hname => (List.mem_filter.mp hname).1
  refine ⟨{ flags := o.flags.reverse, words := files }, ?_, ?_, rfl⟩
  · unfold Grammar.readAll Grammar.read
    rw [senses_flags hnames]
    dsimp only [bind, Except.bind]
    rw [take_flags o.flags hfiles (by simp; omega) {} rfl, List.append_nil]
    rfl
  · obtain ⟨strict, quiet, color, business⟩ := o
    cases strict <;> cases quiet <;> cases color <;> cases business <;> rfl

end Flags

/-- What is shown does not change what is counted. -/
theorem exitCode_printReports (o s : Options) (strict : Bool) (rs : List Report) :
    exitCode strict (printReports o rs) = exitCode strict (printReports s rs) := by
  simp only [exitCode, printReports, errors_foldl_add, warnings_foldl_add]

/-- A disk with a diagram whose first state is not named as states should be. -/
def draftDisk : Disk where
  entries := [(["work"], .directory),
    (["work", "draft.md"],
    .file "flowchart TD\n  menu -->|PAY| Done\n  menu -->|QUIT| Done".toUTF8 0)]
  home := ["work"]

example : exitStatus (run draftDisk ["--quiet", "draft.md"]) = 0 := by decide +kernel

example : exitStatus (run draftDisk ["--strict", "draft.md"]) = 1 := by decide +kernel

end Command.Validate

end FlowMachine
