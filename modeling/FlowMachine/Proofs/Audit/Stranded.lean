import FlowMachine.Emit.Transitions
import FlowMachine.Proofs.Audit.Findings
import FlowMachine.Proofs.Machine.Transitions
import FlowMachine.Proofs.Reachability

/-!
# States that no path leads to

The audit warns about them and the transition suite lists them. The audit follows the targets of all
states of a name, the suite those of the first state of a name; over a well-formed diagram both
follow the edges, so they find the same states, and in the same order.
-/
namespace FlowMachine

namespace Diagram

variable {d : Diagram}

/-- Two ways to follow links that lead to the same states one by one lead to the same states. -/
theorem leads_eq_hasPath {next : String → List String}
    (h : ∀ a b, b ∈ next a ↔ b ∈ d.targetsOf a) : Leads next = d.HasPath := by
  simp only [← leads_targetsOf, Leads, h]

/-- What is left of nodes when those that a search found are taken away. -/
theorem filter_not_contains {found : List String}
    (h : ∀ id, id ∈ found ↔ d.HasPath d.initial id) (ids : List String) :
    ids.filter (!found.contains ·) = ids.filter fun id => ¬ d.HasPath d.initial id := by
  refine List.filter_congr fun id _ => ?_
  simp [h]

end Diagram

namespace Audit

/-- The warning about a state that no path leads to. -/
def unreachable (initial name : String) : Finding :=
  warning s!"State '{name}' cannot be reached from initial state '{initial}'" "unreachable_state"
    (some s!"Add a transition path from '{initial}' to '{name}'")

/-- All targets of states, in order. -/
def allTargets (states : List State) : List String :=
  states.flatMap fun s => s.transitions.filterMap fun t => t.target.filter fun target =>
    !target.isEmpty

theorem length_allTargets_le (states : List State) :
    (allTargets states).length ≤ transitionCount states := by
  induction states with
  | nil => simp [allTargets]
  | cons s rest ih =>
    have hhere := List.length_filterMap_le
      (fun t : Transition => t.target.filter fun target => !target.isEmpty) s.transitions
    simp only [allTargets, List.flatMap_cons, List.length_append, transitionCount, List.map_cons,
      total_cons] at ih ⊢
    omega

theorem successors_subset (states : List State) (name : String) :
    successors states name ⊆ allTargets states := by
  intro target htarget
  obtain ⟨s, hs, htarget⟩ := List.mem_flatMap.mp htarget
  exact List.mem_flatMap.mpr ⟨s, (List.mem_filter.mp hs).1, htarget⟩

/-- The audit reaches exactly the states that a path of targets leads to. -/
theorem mem_reachable_successors {states : List State} {a b : String} :
    b ∈ reachable (successors states) (transitionCount states) a ↔ Leads (successors states) a b :=
  mem_reachable_iff (successors_subset states) (length_allTargets_le states)

theorem hasState_iff {spec : Spec} {name : String} :
    hasState spec (some name) = true ↔ name ∈ spec.states.map (·.name) := by
  simp [hasState]

theorem unreachableFindings_eq {spec : Spec} {initial : String}
    (hinitial : spec.initial = some initial)
    (hstate : hasState spec (some initial) = true) : unreachableFindings spec =
      ((spec.states.map (·.name)).filter fun name =>
        !(reachable (successors spec.states) (transitionCount spec.states) initial).contains
        name).map
          (unreachable initial) := by
  simp only [unreachableFindings, hinitial, hstate, List.filter_map, List.map_map]
  rfl

/-- No other part of the audit warns about unreachable states. -/
theorem filter_warnings_checkMachine (o : CheckOptions) (spec : Spec) :
    (checkMachine o spec).warnings.filter (·.category == "unreachable_state") =
      unreachableFindings spec := by
  have hown : (unreachableFindings spec).filter
      (fun f => f.category == "unreachable_state" && f.severity == .warning) =
      unreachableFindings spec := by
    refine List.filter_eq_self.mpr fun f hf => ?_
    have hkind := within_unreachableFindings spec f hf
    simp_all
  have hother {kinds : List (Severity × String)} {fs : List Finding} (h : Within kinds fs)
      (hkinds : (Severity.warning, "unreachable_state") ∉ kinds) :
      fs.filter (fun f => f.category == "unreachable_state" && f.severity == .warning) = [] := by
    refine h.filter_eq_nil fun f hf => ?_
    by_contra hpick
    simp only [Bool.not_eq_false, Bool.and_eq_true, beq_iff_eq] at hpick
    rw [hpick.1, hpick.2] at hf
    exact hkinds hf
  have hstates (id : String) := hother (within_stateFindingsFrom o id [] spec.states) (by simp)
  show List.filter _ (warningsOf (machineFindings o spec)) = _
  rw [warningsOf, List.filter_filter, machineFindings, List.filter_append,
    hother (within_metadataFindings o spec) (by simp), List.nil_append]
  split_ifs with hempty
  · have hnone : unreachableFindings spec = [] := by
      unfold unreachableFindings
      split
      · rfl
      · simp [hasState, List.isEmpty_iff.mp hempty]
    rw [hnone]
    simp [error, Finding.error]
  · simp only [List.filter_append, hown, hother (within_outlineFindings o spec) (by simp),
      hother (within_targetFindings spec) (by simp),
      hother (within_categoryFindings o spec) (by simp),
      hother (within_namingFindings o spec) (by simp), List.nil_append, List.append_nil,
      allStateFindings, hstates]
    split_ifs <;> simp [warning, Finding.warning]

end Audit

namespace Diagram

variable {d : Diagram}

theorem names_ofDiagram (d : Diagram) :
    (Audit.Spec.ofDiagram d).states.map (·.name) = d.nodeIds := by
  simp [Audit.Spec.ofDiagram, nodeIds, Function.comp_def]

/-- What the audit follows are the edges of a well-formed diagram. -/
theorem WellFormed.mem_successors_iff (h : d.WellFormed) {a b : String} :
    b ∈ Audit.successors (Audit.Spec.ofDiagram d).states a ↔ b ∈ d.targetsOf a := by
  rw [mem_targetsOf]
  simp only [Audit.successors, Audit.Spec.ofDiagram, List.mem_flatMap, List.mem_filter,
    List.mem_map, List.mem_filterMap]
  constructor
  · rintro ⟨s, ⟨⟨n, -, rfl⟩, hname⟩, t, ht, htarget⟩
    obtain ⟨e, he, rfl⟩ := List.mem_map.mp ht
    obtain ⟨hedge, hsource⟩ := List.mem_filter.mp he
    simp only [beq_iff_eq] at hname hsource
    simp only [Option.filter_eq_some_iff, Option.some.injEq] at htarget
    exact ⟨e, hedge, hsource.trans hname, htarget.1⟩
  · rintro ⟨e, he, rfl, rfl⟩
    obtain ⟨hsource, htarget⟩ := h.edges_closed e he
    obtain ⟨n, hn, hid⟩ := List.mem_map.mp hsource
    obtain ⟨c, rest, htext, -⟩ := h.ids_named _ htarget
    have hsome : e.target.isEmpty = false := by
      rw [Bool.eq_false_iff]
      intro hempty
      simp [String.isEmpty_iff.mp hempty] at htext
    have hout : e ∈ d.outgoing n.id := List.mem_filter.mpr ⟨he, by simpa using hid.symm⟩
    exact ⟨_, ⟨⟨n, hn, rfl⟩, by simpa using hid⟩, _, List.mem_map_of_mem hout, by simp [hsome]⟩

/-- What the transition suite follows are the edges of a well-formed diagram. -/
theorem WellFormed.mem_suite_successors_iff (h : d.WellFormed) (o : DeriveOptions) {a b : String} :
    b ∈ Emit.successors (Machine.derive o d) a ↔ b ∈ d.targetsOf a := by
  unfold Emit.successors Machine.state?
  rw [Machine.states_derive]
  split
  · rename_i s hs
    have hname : s.name = a := by simpa using List.find?_some hs
    rw [Machine.transitions_statesOf (List.mem_of_find?_eq_some hs), hname]
    simp [targetsOf, Machine.transitionOf]
  · rename_i hnone
    have hnot : a ∉ d.nodeIds := by
      rw [← Machine.names_statesOf]
      intro hmem
      obtain ⟨s, hs, hname⟩ := List.mem_map.mp hmem
      exact List.find?_eq_none.mp hnone s hs (by simpa using hname)
    simp only [List.not_mem_nil, false_iff, mem_targetsOf]
    rintro ⟨e, he, rfl, -⟩
    exact hnot (h.edges_closed e he).1

theorem WellFormed.hasState_initial (h : d.WellFormed) :
    Audit.hasState (.ofDiagram d) (some d.initial) = true := by
  rw [Audit.hasState_iff, names_ofDiagram]
  exact h.initial_mem

/-- The audit warns about the nodes that no path from the initial node leads to, in order. -/
theorem WellFormed.unreachableFindings_eq (h : d.WellFormed) :
    Audit.unreachableFindings (.ofDiagram d) =
      (d.nodeIds.filter fun id => ¬ d.HasPath d.initial id).map (Audit.unreachable d.initial) := by
  rw [Audit.unreachableFindings_eq rfl h.hasState_initial, names_ofDiagram]
  rw [filter_not_contains fun id => ?_]
  rw [← leads_eq_hasPath fun a b => h.mem_successors_iff]
  exact Audit.mem_reachable_successors

/-- The transition suite lists the nodes that no path from the initial node leads to, in order. -/
theorem WellFormed.strandedStates_eq (h : d.WellFormed) (o : DeriveOptions) :
    Emit.strandedStates (Machine.derive o d) =
      d.nodeIds.filter fun id => ¬ d.HasPath d.initial id := by
  have hlinks (a : String) : Emit.successors (Machine.derive o d) a ⊆ d.edges.map (·.target) := by
    intro b hb
    obtain ⟨e, he, -, rfl⟩ := mem_targetsOf.mp ((h.mem_suite_successors_iff o).mp hb)
    exact List.mem_map_of_mem he
  have hcount : (d.edges.map (·.target)).length ≤ (Machine.derive o d).transitionCount := by
    have hedges := (Machine.follows_derive o h).count_eq
    simp [hedges]
  rw [Emit.strandedStates, (Machine.follows_derive o h).names_eq]
  refine filter_not_contains (fun id => ?_) d.nodeIds
  rw [← leads_eq_hasPath fun a b => h.mem_suite_successors_iff o]
  exact mem_reachable_iff hlinks hcount

end Diagram

/-- Whatever text a diagram is read from, the transition suite of its machine lists the nodes that
no path from the initial node leads to, and the audit warns about the same nodes in the same
order. -/
theorem unreachable_of_mem_read {options : ReadOptions} {text : String} {name path : Option String}
    {d : Diagram} (h : d ∈ (Source.read options text name path).diagrams) (o : DeriveOptions)
    (checks : CheckOptions) :
    Emit.strandedStates (Machine.derive o d) =
        (d.nodeIds.filter fun id => ¬ d.HasPath d.initial id) ∧
      (Audit.checkMachine checks (.ofDiagram d)).warnings.filter
        (·.category == "unreachable_state") =
        (Emit.strandedStates (Machine.derive o d)).map (Audit.unreachable d.initial) := by
  obtain ⟨b, id, hb⟩ := Source.exists_block_of_mem_read h
  have hd := Source.wellFormed_of_readBlock hb
  refine ⟨hd.strandedStates_eq o, ?_⟩
  rw [Audit.filter_warnings_checkMachine, hd.unreachableFindings_eq, hd.strandedStates_eq o]

/-- A cycle that only leads out to the rest of the diagram is not reached. -/
theorem unreachable_of_mem_read_cycle :
    ∃ d ∈ (Source.read {} "flowchart TD\nA --> B --> A\nC --> D --> C\nD --> B" none none).diagrams,
      (d.nodeIds.filter fun id => ¬ d.HasPath d.initial id) = ["C", "D"] ∧
      Emit.strandedStates (Machine.derive {} d) =
        (d.nodeIds.filter fun id => ¬ d.HasPath d.initial id) ∧
      (Audit.checkMachine {} (.ofDiagram d)).warnings.filter (·.category == "unreachable_state") =
        (Emit.strandedStates (Machine.derive {} d)).map (Audit.unreachable d.initial) := by
  have hd : ∃ d ∈ (Source.read {} "flowchart TD\nA --> B --> A\nC --> D --> C\nD --> B"
      none none).diagrams, (d.nodeIds.filter fun id => ¬ d.HasPath d.initial id) = ["C", "D"] := by
    decide +kernel
  obtain ⟨d, hmem, hpaths⟩ := hd
  exact ⟨d, hmem, hpaths, unreachable_of_mem_read hmem {} {}⟩

end FlowMachine
