import FlowMachine.Check
import FlowMachine.Proofs.Lint.Strictness

/-!
# Grades of lint findings

Without strict mode the lint has no error about naming. So the reports with and without it are told
apart by naming alone: strict mode moves these findings from the warnings to the errors, and all
other findings stay where they are.
-/
namespace FlowMachine.Lint

/-! ## Kinds of lint findings -/

/-- The kinds of what is found in the lines of a diagram without strict mode. -/
def lineKinds : List (Severity × String) :=
  [(.error, "state_name"), (.warning, "naming"), (.warning, "reserved_name"),
   (.warning, "long_name"),
   (.warning, "event_name"), (.error, "class_name"), (.warning, "class_styles"),
   (.error, "unbalanced_brackets"), (.error, "transition_syntax"), (.warning, "subgraph"),
   (.warning, "unsupported"), (.error, "syntax"), (.error, "declaration")]

/-- The kinds of what is found in a text without strict mode. -/
def textKinds : List (Severity × String) := fenceKinds ++ (.warning, "no_content") :: lineKinds

variable (naming : Bool) (n : Nat)

theorem within_namingFinding {kinds : List (Severity × String)} {message suggestion : String} :
    Within kinds [namingFinding ⟨false, naming⟩ message suggestion n] ↔
      (.warning, "naming") ∈ kinds :=
  within_singleton

theorem within_checkName (role : NameRole) (cs : List Char) :
    Within lineKinds (checkName ⟨false, naming⟩ n role cs) := by
  unfold checkName
  simp only [within_ite, within_append, within_error, within_warning,
    within_namingFinding, within_nil]
  simp [lineKinds]

theorem within_checkLabel (cs : List Char) :
    Within lineKinds (checkLabel ⟨false, naming⟩ n cs) := by
  unfold checkLabel
  simp only [within_ite, within_warning, within_namingFinding, within_nil]
  simp [lineKinds]

theorem within_checkChain (chain : Chain) :
    Within lineKinds (checkChain ⟨false, naming⟩ n chain) := by
  unfold checkChain
  refine within_append.mpr ⟨?_, within_flatMap.mpr fun label _ => within_checkLabel naming n label⟩
  cases chain.names with
  | nil => exact within_nil
  | cons first rest =>
    exact within_append.mpr ⟨within_checkName naming n .source first,
      within_flatMap.mpr fun name _ => within_checkName naming n .target name⟩

theorem within_checkTransition (line : List Char) :
    Within lineKinds (checkTransition ⟨false, naming⟩ n line) := by
  unfold checkTransition
  split_ifs
  · exact within_error.mpr (by decide)
  · cases readChain? line with
    | none => exact within_error.mpr (by decide)
    | some chain => exact within_checkChain naming n chain

theorem within_checkAssignment (targets name : List Char) :
    Within lineKinds (checkAssignment ⟨false, naming⟩ n targets name) :=
  within_append.mpr ⟨within_flatMap.mpr fun target _ =>
    within_checkName naming n .classTarget target, (within_checkClassName n name).mono (by decide)⟩

theorem within_checkLine (line : List Char) :
    Within lineKinds (checkLine ⟨false, naming⟩ n line) := by
  unfold checkLine
  dsimp only
  split
  · exact (within_checkClassDef n _ _).mono (by decide)
  split
  · exact within_checkAssignment naming n _ _
  split
  · exact within_checkTransition naming n line
  split
  · exact within_checkName naming n .styled _
  split
  · exact within_warning.mpr (by decide)
  split
  · exact within_warning.mpr (by decide)
  split
  · refine within_append.mpr ⟨within_checkName naming n .node _, ?_⟩
    split_ifs
    · exact within_nil
    · exact within_error.mpr (by decide)
  · split_ifs <;> exact within_error.mpr (by decide)

theorem within_checkBodyLine (line : Line) :
    Within lineKinds (checkBodyLine ⟨false, naming⟩ line) := by
  unfold checkBodyLine
  split_ifs
  · exact within_error.mpr (by decide)
  · exact within_checkLine naming _ _

theorem within_checkRegion (region : Region) :
    Within lineKinds (checkRegion ⟨false, naming⟩ region) := by
  unfold checkRegion
  cases content region.lines with
  | nil => exact within_nil
  | cons first rest =>
    refine within_append.mpr ⟨?_, within_flatMap.mpr fun line _ => within_checkBodyLine naming line⟩
    split_ifs
    · exact within_nil
    · exact within_error.mpr (by decide)

theorem within_findings (text : String) : Within textKinds (findings ⟨false, naming⟩ text) := by
  unfold findings
  refine within_append.mpr ⟨within_append.mpr ⟨?_, ?_⟩, ?_⟩
  · exact (within_regions _).mono (List.subset_append_left _ _)
  · split_ifs
    · exact within_warning.mpr (by decide)
    · exact within_nil
  · refine within_flatMap.mpr fun region _ => (within_checkRegion naming region).mono ?_
    exact List.subset_append_of_subset_right _ (List.subset_cons_self _ _)

/-- Without strict mode a finding about naming is a warning. -/
theorem severity_of_naming {text : String} {f : Finding} (hf : f ∈ findings ⟨false, naming⟩ text)
    (hcategory : f.category = "naming") : f.severity = .warning := by
  have hkinds : ∀ kind ∈ textKinds, kind.2 = "naming" → kind.1 = .warning := by decide
  exact hkinds _ (within_findings naming text f hf) hcategory

/-! ## Moving findings -/

/-- What is not about naming stays a warning, and no other warnings are left. -/
theorem warningsOf_map_strictly (fs : List Finding) :
    warningsOf (fs.map Finding.strictly) = (warningsOf fs).filter (·.category != "naming") := by
  induction fs with
  | nil => rfl
  | cons f fs ih =>
    rw [List.map_cons, warningsOf_cons, warningsOf_cons, ih]
    by_cases hnaming : f.category = "naming"
    · simp [Finding.strictly, hnaming, apply_ite (List.filter _)]
    · simp [Finding.strictly, hnaming, apply_ite (List.filter _)]

section Mild

variable {fs : List Finding} (hmild : ∀ f ∈ fs, f.category = "naming" → f.severity = .warning)

include hmild

/-- What is not about naming stays an error, and the errors were all of that kind. -/
theorem filter_others_errorsOf_map_strictly :
    (errorsOf (fs.map Finding.strictly)).filter (·.category != "naming") = errorsOf fs := by
  induction fs with
  | nil => rfl
  | cons f fs ih =>
    obtain ⟨hfirst, hrest⟩ := List.forall_mem_cons.mp hmild
    rw [List.map_cons, errorsOf_cons, errorsOf_cons, ← ih hrest]
    by_cases hnaming : f.category = "naming"
    · simp [Finding.strictly, hnaming, hfirst hnaming]
    · simp [Finding.strictly, hnaming, apply_ite (List.filter _)]

/-- The errors about naming are the warnings about it. -/
theorem filter_naming_errorsOf_map_strictly :
    (errorsOf (fs.map Finding.strictly)).filter (·.category == "naming") =
      ((warningsOf fs).filter (·.category == "naming")).map ({ · with severity := .error }) := by
  induction fs with
  | nil => rfl
  | cons f fs ih =>
    obtain ⟨hfirst, hrest⟩ := List.forall_mem_cons.mp hmild
    rw [List.map_cons, errorsOf_cons, warningsOf_cons]
    by_cases hnaming : f.category = "naming"
    · simp [Finding.strictly, hnaming, hfirst hnaming, ih hrest]
    · simp [Finding.strictly, hnaming, ih hrest, apply_ite (List.filter _)]

end Mild

/-- A text is linted twice under settings that differ in strict mode alone. The warnings of the
strict report are those of the other one that are not about naming, its errors that are not about
naming are all the errors of the other one, and its errors about naming are the other one's warnings
about naming. So what is valid in strict mode is valid without it. -/
theorem check_regraded (s : RuleSettings) {off on : Datum} (hoff : off.truthy = false)
    (hon : on.truthy = true) (text source : String) :
    let lenient := check { s with strictMode := off }.toOptions.lint text source
    let strict := check { s with strictMode := on }.toOptions.lint text source
    strict.warnings = lenient.warnings.filter (·.category != "naming") ∧
      strict.errors.filter (·.category != "naming") = lenient.errors ∧
      strict.errors.filter (·.category == "naming") =
        (lenient.warnings.filter (·.category == "naming")).map ({ · with severity := .error }) ∧
      (strict.isValid = true → lenient.isValid = true) := by
  intro lenient strict
  have hlenient : lenient = .ofFindings source
      (findings ⟨false, s.validateNaming.truthy⟩ text) := by
    rw [← hoff]
    rfl
  have hstrict : strict = .ofFindings source
      ((findings ⟨false, s.validateNaming.truthy⟩ text).map Finding.strictly) := by
    rw [← findings_strict, ← hon]
    rfl
  have hmild : ∀ f ∈ findings ⟨false, s.validateNaming.truthy⟩ text,
      f.category = "naming" → f.severity = .warning := fun f hf => severity_of_naming _ hf
  have hothers : strict.errors.filter (·.category != "naming") = lenient.errors := by
    simp only [hlenient, hstrict, Report.ofFindings]
    exact filter_others_errorsOf_map_strictly hmild
  refine ⟨?_, hothers, ?_, fun hvalid => ?_⟩
  · simp only [hlenient, hstrict, Report.ofFindings]
    exact warningsOf_map_strictly _
  · simp only [hlenient, hstrict, Report.ofFindings]
    exact filter_naming_errorsOf_map_strictly hmild
  · rw [Report.isValid, List.isEmpty_iff] at hvalid ⊢
    rw [← hothers, hvalid]
    rfl

/-- The first name is reserved and no name for a state by the convention. -/
def lowerCaseText : String := "graph TD\nstart -->|GO| Menu"

/-- The finding about naming is moved, and the one about a reserved name stays. -/
theorem check_regraded_lowerCase :
    Datum.truthy (.bool false) = false ∧ Datum.truthy (.bool true) = true ∧
      (check ⟨true, true⟩ lowerCaseText "").warnings.map (·.category) = ["reserved_name"] ∧
      ((check ⟨true, true⟩ lowerCaseText "").errors.filter (·.category == "naming")).map
        (·.message) =
        ["Source state 'start' should follow PascalCase convention"] := by
  obtain ⟨hwarnings, -, hnaming, -⟩ :=
    check_regraded {} (rfl : (Datum.bool false).truthy = false)
      (rfl : (Datum.bool true).truthy = true)
      lowerCaseText ""
  refine ⟨rfl, rfl, ?_, ?_⟩
  · refine (congrArg (List.map (·.category)) hwarnings).trans ?_
    decide +kernel
  · refine (congrArg (List.map (·.message)) hnaming).trans ?_
    decide +kernel

end FlowMachine.Lint
