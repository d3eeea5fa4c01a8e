import FlowMachine.Proofs.Audit.Parsed

/-!
# Batches in another order

What the audit finds about a machine does not depend on the other machines, and what it finds about
a batch depends on how often each name and each category occurs in it. So machines in another order
have the same findings in another order. Of the machines of one name all but one are reported,
whichever comes first.
-/
namespace FlowMachine

/-- Looking up categories runs into the same fault in any order. -/
theorem RuleSettings.allowedFault?_perm (s : RuleSettings) {categories categories' : List String}
    (h : categories.Perm categories') :
    s.allowedFault? categories = s.allowedFault? categories' := by
  unfold allowedFault?
  simp only [h.any_eq, h.isEmpty_eq]

namespace Audit

variable {specs specs' : List Spec}

/-! ## Kinds of findings about one machine -/

/-- The kinds of what is found about one machine. -/
def machineKinds : List (Severity × String) :=
  [(.error, "missing_metadata"), (.error, "invalid_category"), (.error, "no_states"),
   (.warning, "too_many_states"), (.error, "missing_initial_state"),
   (.error, "invalid_initial_state"),
   (.error, "duplicate_state"), (.warning, "too_many_transitions"),
   (.error, "final_state_transitions"),
   (.warning, "dead_end_state"), (.warning, "no_final_state"), (.warning, "many_final_states"),
   (.error, "invalid_transition_target"), (.warning, "unreachable_state"),
   (.warning, "category_rule"),
   (.warning, "missing_error_handling"), (.warning, "missing_navigation"), (.warning, "naming")]

theorem within_machineFindings (o : CheckOptions) (spec : Spec) :
    Within machineKinds (machineFindings o spec) := by
  have hstates : Within machineKinds (allStateFindings o spec) := by
    refine within_append.mpr ⟨within_append.mpr ⟨?_, ?_⟩, ?_⟩
    · exact (within_stateFindingsFrom o _ [] spec.states).mono (by decide)
    · split_ifs
      · exact within_warning.mpr (by decide)
      · exact within_nil
    · split_ifs
      · exact within_warning.mpr (by decide)
      · exact within_nil
  refine within_append.mpr ⟨(within_metadataFindings o spec).mono (by decide), ?_⟩
  split_ifs
  · exact within_error.mpr (by decide)
  · simp only [within_append]
    exact ⟨⟨⟨⟨⟨(within_outlineFindings o spec).mono (by decide), hstates⟩,
      (within_targetFindings spec).mono (by decide)⟩,
      (within_unreachableFindings spec).mono (by decide)⟩,
      (within_categoryFindings o spec).mono (by decide)⟩,
      (within_namingFindings o spec).mono (by decide)⟩

/-! ## Repeated names -/

/-- The finding about a name that another machine has already. -/
def sharedName (name : String) : Finding :=
  error s!"Machine name '{name}' is used by multiple machines" "duplicate_machine" none

theorem sharedName_injective : Function.Injective sharedName := by
  intro name name' h
  have hmessage : (sharedName name).message = (sharedName name').message := congrArg _ h
  have hchars : (toString name).toList = (toString name').toList := by
    simpa [sharedName, error, Finding.error, ← String.toList_inj] using hmessage
  exact String.toList_inj.mp hchars

theorem repeatedNames_cons (before : List String) (spec : Spec) (specs : List Spec) :
    repeatedNames before (spec :: specs) =
      (if spec.name ∈ before then [sharedName spec.name] else []) ++
        repeatedNames (before ++ [spec.name]) specs := by
  rw [repeatedNames]
  simp only [List.contains_iff_mem]
  rfl

theorem exists_of_mem_repeatedNames {before : List String} {f : Finding}
    (hf : f ∈ repeatedNames before specs) : ∃ spec ∈ specs, f = sharedName spec.name := by
  induction specs generalizing before with
  | nil => cases hf
  | cons spec specs ih =>
    rw [repeatedNames_cons, List.mem_append] at hf
    rcases hf with hfirst | hrest
    · refine ⟨spec, List.mem_cons_self, ?_⟩
      split_ifs at hfirst
      · exact List.mem_singleton.mp hfirst
      · cases hfirst
    · obtain ⟨other, hother, heq⟩ := ih hrest
      exact ⟨other, List.mem_cons_of_mem _ hother, heq⟩

/-- A name is reported as often as it is used, but for its first use. -/
theorem count_repeatedNames (before : List String) (specs : List Spec) (name : String) :
    (repeatedNames before specs).count (sharedName name) =
      (specs.map (·.name)).count name - if name ∈ before then 0 else 1 := by
  induction specs generalizing before with
  | nil => simp [repeatedNames]
  | cons spec specs ih =>
    rw [repeatedNames_cons, List.count_append, ih, List.map_cons]
    by_cases hname : spec.name = name
    · subst hname
      by_cases hbefore : spec.name ∈ before
      · simp [hbefore]
        omega
      · simp [hbefore]
    · have hother : sharedName spec.name ≠ sharedName name := sharedName_injective.ne hname
      have hcount : (if spec.name ∈ before then [sharedName spec.name] else []).count
          (sharedName name) = 0 := by
        split_ifs
        · exact List.count_eq_zero.mpr (by simpa using hother.symm)
        · rfl
      rw [hcount, List.count_cons_of_ne hname]
      simp [Ne.symm hname]

theorem repeatedNames_perm (h : specs.Perm specs') :
    (repeatedNames [] specs).Perm (repeatedNames [] specs') := by
  refine List.perm_iff_count.mpr fun f => ?_
  by_cases hshared : ∃ name, f = sharedName name
  · obtain ⟨name, rfl⟩ := hshared
    rw [count_repeatedNames, count_repeatedNames, (h.map _).count_eq]
  · have hnone (specs : List Spec) : (repeatedNames [] specs).count f = 0 := by
      refine List.count_eq_zero.mpr fun hf => hshared ?_
      obtain ⟨spec, -, heq⟩ := exists_of_mem_repeatedNames hf
      exact ⟨_, heq⟩
    rw [hnone, hnone]

/-! ## Batches -/

theorem togetherFindings_perm (h : specs.Perm specs') :
    (togetherFindings specs).Perm (togetherFindings specs') := by
  unfold togetherFindings
  rw [h.any_eq, h.any_eq]
  exact ((repeatedNames_perm h).append_right _).append_right _

theorem batchFindings_perm (o : CheckOptions) (h : specs.Perm specs') :
    (batchFindings o specs).Perm (batchFindings o specs') := by
  unfold batchFindings
  rw [h.isEmpty_eq]
  split_ifs
  · exact .refl _
  · exact (h.flatMap_right _).append (togetherFindings_perm h)

/-- The errors about repeated names are all that a batch has of their kind. -/
theorem filter_errors_check (o : CheckOptions) (specs : List Spec) (source : String) :
    (check o specs source).errors.filter (·.category == "duplicate_machine") =
      repeatedNames [] specs := by
  have hrepeated : (errorsOf (repeatedNames [] specs)).filter (·.category == "duplicate_machine") =
      repeatedNames [] specs := by
    rw [errorsOf_repeatedNames]
    refine List.filter_eq_self.mpr fun f hf => ?_
    obtain ⟨spec, -, rfl⟩ := exists_of_mem_repeatedNames hf
    rfl
  have hmachines : (errorsOf (specs.flatMap (machineFindings o))).filter
      (·.category == "duplicate_machine") = [] := by
    refine List.filter_eq_nil_iff.mpr fun f hf => ?_
    obtain ⟨spec, -, hspec⟩ := List.mem_flatMap.mp (List.mem_filter.mp hf).1
    have hkinds : ∀ kind ∈ machineKinds, kind.2 ≠ "duplicate_machine" := by decide
    simpa using hkinds _ (within_machineFindings o spec f hspec)
  show (errorsOf (batchFindings o specs)).filter _ = _
  unfold batchFindings togetherFindings
  split_ifs with hempty
  · rw [List.isEmpty_iff.mp hempty]
    rfl
  all_goals
    simp only [errorsOf_append, errorsOf_warning, List.filter_append, List.append_nil,
      List.nil_append, hmachines, hrepeated]

/-- A batch is audited in two orders. Either the allowed categories cannot be used and both audits
run into that, or both reports have the same errors and the same warnings, each as often. A name
that is used several times is reported as often as it is used but once, and there is no other error
of that kind. -/
theorem check_of_perm (s : RuleSettings) (h : specs.Perm specs') (source : String) :
    (∃ fault, underSettings s specs (check · specs source) = .error fault ∧
      underSettings s specs' (check · specs' source) = .error fault) ∨
    ∃ r r', underSettings s specs (check · specs source) = .ok r ∧
      underSettings s specs' (check · specs' source) = .ok r' ∧
      r.errors.Perm r'.errors ∧ r.warnings.Perm r'.warnings ∧
      (∀ name, r.errors.count (sharedName name) = (specs.map (·.name)).count name - 1) ∧
      ∀ f ∈ r.errors, f.category = "duplicate_machine" →
      ∃ spec ∈ specs, f = sharedName spec.name := by
  have hgiven : (givenCategories specs).Perm (givenCategories specs') := (h.filterMap _).filter _
  have hfault := s.allowedFault?_perm hgiven
  unfold underSettings
  rw [← hfault]
  cases s.allowedFault? (givenCategories specs) with
  | some fault => exact .inl ⟨fault, rfl, rfl⟩
  | none =>
    have hfindings := batchFindings_perm s.toOptions h
    have hnames := filter_errors_check s.toOptions specs source
    refine .inr ⟨_, _, rfl, rfl, hfindings.filter _, hfindings.filter _, fun name => ?_, ?_⟩
    · rw [← List.count_filter (p := (·.category == "duplicate_machine")) rfl, hnames,
        count_repeatedNames]
      simp
    · intro f hf hcategory
      have hrepeated : f ∈ repeatedNames [] specs := by
        rw [← hnames]
        exact List.mem_filter.mpr ⟨hf, beq_iff_eq.mpr hcategory⟩
      exact exists_of_mem_repeatedNames hrepeated

/-- Two machines of one name, and one of another name in the middle. -/
def menuBatch : List Spec :=
  let menu (id : String) : Spec :=
    ⟨some id, "Menu", some "user", some "Main", [⟨"Main", true, [], ""⟩], ""⟩
  [menu "first", ⟨some "router", "Router", some "core", none, [], ""⟩, menu "second"]

/-- From behind, the other machine of the name is reported. -/
theorem check_of_perm_menu : menuBatch.Perm menuBatch.reverse ∧
    ∃ r, underSettings {} menuBatch.reverse (check · menuBatch.reverse "batch") = .ok r ∧
      r.errors.count (sharedName "Menu") = 1 := by
  have hperm : menuBatch.Perm menuBatch.reverse := menuBatch.reverse_perm.symm
  obtain ⟨fault, hfault, -⟩ | ⟨r, r', -, hreverse, herrors, -, hcount, -⟩ :=
    check_of_perm {} hperm "batch"
  · rw [underSettings_default] at hfault
    cases hfault
  · refine ⟨hperm, r', hreverse, ?_⟩
    rw [← herrors.count_eq, hcount]
    decide

end Audit

end FlowMachine
