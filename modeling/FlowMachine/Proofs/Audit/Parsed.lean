import FlowMachine.Proofs.Audit.Stranded
import FlowMachine.Proofs.Diagram.Departures
import FlowMachine.Proofs.Diagram.Numbering

/-!
# Auditing what was read

The audit is written for machines of any kind, and most of its errors cannot arise for diagrams that
were read: they are well formed, have a known category, and display names of their own. What is left
are names that show nothing and final nodes that edges leave, and the latter are those that reading
has warned about.
-/
namespace FlowMachine

open FlowMachine.Text FlowMachine.Identifier

/-- Every category is allowed. -/
def CheckOptions.AllowsAll (o : CheckOptions) : Prop :=
  ∀ c : Category, o.allowed.admits c.name = true

theorem CheckOptions.allowsAll_default : ({} : CheckOptions).AllowsAll := by
  intro c
  cases c <;> decide

namespace Audit

/-- The error about a final state with transitions. -/
def leavesFinal (name : String) : Finding :=
  error s!"Final state '{name}' should not have outgoing transitions" "final_state_transitions"
    (some s!"Remove the transitions or make '{name}' non-final")

/-- The final states with transitions, in order. -/
def departing (states : List State) : List String :=
  (states.filter fun s => s.isFinal && !s.transitions.isEmpty).map (·.name)

variable {o : CheckOptions}

theorem errors_checkMachine_eq (o : CheckOptions) (spec : Spec) :
    (checkMachine o spec).errors = errorsOf (machineFindings o spec) := rfl

/-! ## Errors about states -/

theorem errorsOf_stateFindings (id : String) {before : List State} {s : State}
    (hnew : s.name ∉ before.map (·.name)) :
    errorsOf (stateFindings o id before s) = (departing [s]).map leavesFinal := by
  have hfirst : before.any (·.name == s.name) = false := by
    refine List.any_eq_false.mpr fun other hother hsame => hnew ?_
    exact List.mem_map.mpr ⟨other, hother, by simpa using hsame⟩
  simp only [stateFindings, hfirst, Bool.false_eq_true, if_false, List.nil_append, errorsOf_append,
    errorsOf_ite, errorsOf_warning, errorsOf_error, errorsOf_nil, ite_self, departing]
  cases hfinal : s.isFinal <;> cases hnone : s.transitions.isEmpty <;>
    simp [hfinal, hnone, leavesFinal]

/-- When no name stands twice, the errors about states are those about final states with
transitions. -/
theorem errorsOf_stateFindingsFrom (id : String) {before states : List State}
    (hnodup : (before.map (·.name) ++ states.map (·.name)).Nodup) :
    errorsOf (stateFindingsFrom o id before states) = (departing states).map leavesFinal := by
  induction states generalizing before with
  | nil => rfl
  | cons s rest ih =>
    have hnew : s.name ∉ before.map (·.name) := by
      rw [List.map_cons] at hnodup
      exact fun hmem => (List.nodup_append.mp hnodup).2.2 _ hmem _ List.mem_cons_self rfl
    have hsplit : departing (s :: rest) = departing [s] ++ departing rest := by
      simp only [departing, ← List.map_append, ← List.filter_append, List.singleton_append]
    rw [stateFindingsFrom, errorsOf_append, errorsOf_stateFindings id hnew, hsplit, List.map_append,
      ih (by simpa using hnodup)]

end Audit

/-! ## Errors about a well-formed diagram -/

namespace Diagram

open FlowMachine.Audit

variable {d : Diagram} {o : CheckOptions}

theorem hasState_ofDiagram {id : String} :
    hasState (.ofDiagram d) (some id) = true ↔ id ∈ d.nodeIds := by
  rw [hasState_iff, names_ofDiagram]

/-- Of the metadata only the id and the name can be missing, as a diagram has one of the known
categories. -/
theorem metadataFindings_ofDiagram (ho : o.AllowsAll) (d : Diagram) :
    metadataFindings o (.ofDiagram d) =
      (if isBlankText d.id then [error "Missing machine ID" "missing_metadata" none] else []) ++
      (if isBlankText d.displayName then
        [error s!"Machine '{d.id}' has no name" "missing_metadata" none] else []) := by
  have hgiven : ¬ missing (Spec.ofDiagram d).category = true := by
    show ¬ d.category.name.isEmpty = true
    cases d.category <;> decide
  have hallowed : ¬ (!o.allowed.admits (shown (Spec.ofDiagram d).category)) = true := by
    show ¬ (!o.allowed.admits d.category.name) = true
    simp [ho d.category]
  rw [metadataFindings, if_neg hgiven, if_neg hallowed, List.append_nil]
  rfl

theorem within_metadata_ofDiagram (ho : o.AllowsAll) (d : Diagram) :
    Within [(.error, "missing_metadata")] (metadataFindings o (.ofDiagram d)) := by
  rw [metadataFindings_ofDiagram ho]
  simp

theorem WellFormed.errorsOf_outlineFindings (h : d.WellFormed) :
    errorsOf (outlineFindings o (.ofDiagram d)) = [] := by
  have hgiven : missing (Spec.ofDiagram d).initial = false := by
    obtain ⟨c, rest, htext, -⟩ := h.ids_named _ h.initial_mem
    show d.initial.isEmpty = false
    rw [Bool.eq_false_iff]
    intro hempty
    simp [String.isEmpty_iff.mp hempty] at htext
  have hstate : hasState (.ofDiagram d) (Spec.ofDiagram d).initial = true := h.hasState_initial
  simp only [outlineFindings, hgiven, hstate, errorsOf_ite, errorsOf_warning, errorsOf_nil,
    Bool.not_true, Bool.false_eq_true, if_false, ite_self, List.append_nil]

theorem WellFormed.targetFindings_eq_nil (h : d.WellFormed) :
    targetFindings (.ofDiagram d) = [] := by
  refine List.flatMap_eq_nil_iff.mpr fun s hs => List.flatMap_eq_nil_iff.mpr fun t ht => ?_
  obtain ⟨n, -, rfl⟩ := List.mem_map.mp hs
  obtain ⟨e, he, rfl⟩ := List.mem_map.mp ht
  have htarget := (h.edges_closed e (List.mem_filter.mp he).1).2
  simp [hasState_ofDiagram.mpr htarget]

/-- The errors of an audit of a well-formed diagram. -/
theorem WellFormed.errors_checkMachine (h : d.WellFormed) :
    (checkMachine o (.ofDiagram d)).errors = metadataFindings o (.ofDiagram d) ++
      (departing (Spec.ofDiagram d).states).map leavesFinal := by
  have hmetadata := (within_metadataFindings o (.ofDiagram d)).errorsOf_eq_self (by decide)
  have hnodup : ((Spec.ofDiagram d).states.map (·.name)).Nodup := by
    rw [names_ofDiagram]
    exact h.ids_nodup
  have hsome : (Spec.ofDiagram d).states.isEmpty = false := by
    simpa [Spec.ofDiagram] using h.nodes_ne_nil
  have hstates : errorsOf (allStateFindings o (.ofDiagram d)) =
      (departing (Spec.ofDiagram d).states).map leavesFinal := by
    have hfrom : errorsOf (stateFindingsFrom o (shown (Spec.ofDiagram d).id) []
        (Spec.ofDiagram d).states) = _ := errorsOf_stateFindingsFrom _ hnodup
    simp only [allStateFindings, errorsOf_append, hfrom, errorsOf_ite, errorsOf_warning,
      errorsOf_nil, ite_self, List.append_nil]
  rw [errors_checkMachine_eq, machineFindings, if_neg (by simp [hsome])]
  simp only [errorsOf_append, hmetadata, hstates, h.errorsOf_outlineFindings,
    h.targetFindings_eq_nil, (within_unreachableFindings _).errorsOf_eq_nil (by decide),
    (within_categoryFindings _ _).errorsOf_eq_nil (by decide),
    (within_namingFindings _ _).errorsOf_eq_nil (by decide), List.nil_append, List.append_nil]

theorem WellFormed.filter_errors_checkMachine (h : d.WellFormed) (ho : o.AllowsAll) :
    (checkMachine o (.ofDiagram d)).errors.filter (·.category == "final_state_transitions") =
      (departing (Spec.ofDiagram d).states).map leavesFinal := by
  have hmetadata : (metadataFindings o (.ofDiagram d)).filter
      (·.category == "final_state_transitions") = [] :=
    (within_metadata_ofDiagram ho d).filter_eq_nil fun f hf => by
      have hcategory : f.category = "missing_metadata" :=
        congrArg Prod.snd (List.mem_singleton.mp hf)
      simp [hcategory]
  rw [h.errors_checkMachine, List.filter_append, hmetadata, List.nil_append]
  refine List.filter_eq_self.mpr fun f hf => ?_
  obtain ⟨state, -, rfl⟩ := List.mem_map.mp hf
  rfl

theorem WellFormed.exists_missing_metadata_iff_ne_nil (h : d.WellFormed) (ho : o.AllowsAll) :
    (∃ f ∈ (checkMachine o (.ofDiagram d)).errors, f.category = "missing_metadata") ↔
      metadataFindings o (.ofDiagram d) ≠ [] := by
  rw [h.errors_checkMachine]
  constructor
  · rintro ⟨f, hf, hcategory⟩ hnone
    rw [hnone, List.nil_append] at hf
    obtain ⟨state, -, rfl⟩ := List.mem_map.mp hf
    exact absurd hcategory (by simp [leavesFinal, error, Finding.error])
  · intro hsome
    obtain ⟨f, rest, hfs⟩ := List.exists_cons_of_ne_nil hsome
    have hmem : f ∈ metadataFindings o (.ofDiagram d) := by simp [hfs]
    have hkind := within_metadata_ofDiagram ho d f hmem
    exact ⟨f, List.mem_append_left _ hmem, congrArg Prod.snd (List.mem_singleton.mp hkind)⟩

/-- Metadata are missing exactly when the id shows nothing. -/
theorem metadataFindings_ne_nil_iff (ho : o.AllowsAll)
    (hname : d.displayName = Identifier.displayName d.id) :
    metadataFindings o (.ofDiagram d) ≠ [] ↔ ∀ c ∈ d.id.toList, isJoint c = true := by
  have hblank {s : String} : isBlankText s = true ↔ IsBlanks s.toList := by
    rw [isBlankText, List.isEmpty_iff, trim_eq_nil_iff]
  have hid : IsBlanks d.id.toList → ∀ c ∈ d.id.toList, isJoint c = true :=
    fun h c hc => by simp [isJoint, h c hc]
  rw [metadataFindings_ofDiagram ho, hname, ← isBlanks_displayName_iff, ne_eq,
    List.append_eq_nil_iff]
  rw [← isBlanks_displayName_iff] at hid
  simp only [hblank]
  split_ifs with hfirst hsecond hsecond
  · simp [hsecond]
  · exact absurd (hid hfirst) hsecond
  · simp [hsecond]
  · simp [hsecond]

theorem departing_ofDiagram (d : Diagram) : departing (Spec.ofDiagram d).states =
    (d.nodes.filter fun n => n.isFinal && !(d.outgoing n.id).isEmpty).map (·.id) := by
  simp [departing, Spec.ofDiagram, List.filter_map, Function.comp_def]

theorem WellFormed.mem_departing_iff (h : d.WellFormed) {id : String} :
    id ∈ departing (Spec.ofDiagram d).states ↔ id ∈ d.finals ∧ ∃ e ∈ d.edges, e.source = id := by
  have hleft {id : String} : (!(d.outgoing id).isEmpty) = true ↔ ∃ e ∈ d.edges, e.source = id := by
    simp [outgoing]
  rw [departing_ofDiagram, h.finals_eq]
  simp only [List.mem_map, List.mem_filter, Bool.and_eq_true, hleft]
  constructor
  · rintro ⟨n, ⟨hn, hfinal, hedge⟩, rfl⟩
    exact ⟨⟨n, ⟨hn, hfinal⟩, rfl⟩, hedge⟩
  · rintro ⟨⟨n, ⟨hn, hfinal⟩, rfl⟩, hedge⟩
    exact ⟨n, ⟨hn, hfinal, hedge⟩, rfl⟩

end Diagram

/-! ## Errors about a source -/

namespace Audit

theorem errors_check {specs : List Spec} (hnodup : (specs.map (·.name)).Nodup) (o : CheckOptions)
    (label : String) :
    (check o specs label).errors = specs.flatMap fun spec => (checkMachine o spec).errors := by
  have hnames : repeatedNames [] specs = [] := repeatedNames_eq_nil_iff.mpr ⟨hnodup, by simp⟩
  have htogether : errorsOf (togetherFindings specs) = [] := by
    simp only [togetherFindings, hnames, errorsOf_append, errorsOf_ite, errorsOf_nil,
      errorsOf_warning, ite_self, List.append_nil]
  show errorsOf (batchFindings o specs) = _
  unfold batchFindings
  split_ifs with hempty
  · rw [List.isEmpty_iff.mp hempty]
    rfl
  · rw [errorsOf_append, htogether, List.append_nil, errorsOf, List.filter_flatMap]
    rfl

theorem underSettings_default (specs : List Spec) (run : CheckOptions → Report) :
    underSettings {} specs run = .ok (run {}) := by
  have hallowed : ({} : RuleSettings).allowedFault? (givenCategories specs) = none := by
    unfold RuleSettings.allowedFault?
    dsimp only
    split_ifs <;> rfl
  rw [underSettings, hallowed]
  rfl

/-- An audit of all diagrams of a source, under the default settings, finds only errors about the
single machines, and of two kinds only. Metadata are missing where the id consists of hyphens,
underscores and blanks. The errors about final states name the sources of the edges that reading has
warned about. -/
theorem errors_of_read (options : ReadOptions) (text : String) (name path : Option String)
    (label : String) :
    let source := Source.read options text name path
    let specs := source.diagrams.map Spec.ofDiagram
    ∃ report, underSettings {} specs (check · specs label) = .ok report ∧
      Within [(.error, "missing_metadata"), (.error, "final_state_transitions")] report.errors ∧
      report.errors = source.diagrams.flatMap (fun d => (checkMachine {} (.ofDiagram d)).errors) ∧
      ∀ d ∈ source.diagrams,
        ((∃ f ∈ (checkMachine {} (.ofDiagram d)).errors, f.category = "missing_metadata") ↔
          ∀ c ∈ d.id.toList, isJoint c = true) ∧
        ∃ states : List String, (checkMachine {} (.ofDiagram d)).errors.filter
            (·.category == "final_state_transitions") = states.map leavesFinal ∧
          ∀ id, id ∈ states ↔ ∃ e ∈ d.edges, e.source = id ∧ e.finalWarning ∈ source.findings := by
  intro source specs
  have hnodup : (specs.map (·.name)).Nodup := by
    rw [List.map_map]
    exact Source.nodup_displayName_read text name
  have hwell {d : Diagram} (hd : d ∈ source.diagrams) : d.WellFormed :=
    Source.wellFormed_of_mem_read hd
  refine ⟨_, underSettings_default specs _, ?_, ?_, fun d hd => ⟨?_, ?_⟩⟩
  · rw [errors_check hnodup, List.flatMap_map, within_flatMap]
    intro d hd
    rw [(hwell hd).errors_checkMachine, within_append]
    refine ⟨fun f hf => ?_, fun f hf => ?_⟩
    · have hkind := Diagram.within_metadata_ofDiagram CheckOptions.allowsAll_default d f hf
      exact List.mem_cons.mpr (.inl (List.mem_singleton.mp hkind))
    · obtain ⟨state, -, rfl⟩ := List.mem_map.mp hf
      simp [leavesFinal]
  · rw [errors_check hnodup, List.flatMap_map]
  · rw [(hwell hd).exists_missing_metadata_iff_ne_nil CheckOptions.allowsAll_default,
      Diagram.metadataFindings_ne_nil_iff CheckOptions.allowsAll_default
      (Source.displayName_of_mem_read hd)]
  · refine ⟨departing (Spec.ofDiagram d).states,
      (hwell hd).filter_errors_checkMachine CheckOptions.allowsAll_default, fun id => ?_⟩
    rw [(hwell hd).mem_departing_iff]
    constructor
    · rintro ⟨hfinal, e, he, rfl⟩
      exact ⟨e, he, rfl, (Source.finalWarning_mem_read_iff hd he).mpr hfinal⟩
    · rintro ⟨e, he, rfl, hwarned⟩
      exact ⟨(Source.finalWarning_mem_read_iff hd he).mp hwarned, e, he, rfl⟩

/-- The name of the source shows nothing, and an edge leaves a final node. -/
theorem errors_of_read_nameless :
    ∃ d ∈ (Source.read {} "flowchart TD\nA((x)) --> B" (some "-_ ") none).diagrams,
      (∃ f ∈ (checkMachine {} (.ofDiagram d)).errors, f.category = "missing_metadata") ∧
      ∃ states : List String, (checkMachine {} (.ofDiagram d)).errors.filter
        (·.category == "final_state_transitions") = states.map leavesFinal ∧ "A" ∈ states := by
  have hread : ∃ d ∈ (Source.read {} "flowchart TD\nA((x)) --> B" (some "-_ ") none).diagrams,
      d.id.toList.all isJoint = true ∧ ∃ e ∈ d.edges, e.source = "A" ∧ e.finalWarning ∈
        (Source.read {} "flowchart TD\nA((x)) --> B" (some "-_ ") none).findings := by
    decide +kernel
  obtain ⟨d, hd, hjoints, hedge⟩ := hread
  obtain ⟨-, -, -, -, hall⟩ := errors_of_read {} "flowchart TD\nA((x)) --> B" (some "-_ ") none ""
  obtain ⟨hmissing, states, hfinals, hstates⟩ := hall d hd
  exact ⟨d, hd, hmissing.mpr (List.all_eq_true.mp hjoints), states, hfinals,
    (hstates "A").mpr hedge⟩

end Audit

end FlowMachine
