import FlowMachine.Proofs.Audit.Stranded

/-!
# Paths in arbitrary outlines

An outline need not come from a diagram: names may repeat, and targets may be missing, empty or the
name of no state. The targets of all states of one name belong together, so paths are paths of
names. The search finds the names that a path leads to, in whatever order it goes through the
targets of a name.
-/
namespace FlowMachine.Audit

variable {states : List State} {next : String → List String}

/-- A state of the first name has the second one, which is not empty, as a target. -/
def Joins (states : List State) (a b : String) : Prop :=
  ∃ s ∈ states, s.name = a ∧ ∃ t ∈ s.transitions, t.target = some b ∧ b ≠ ""

/-- A path of targets leads from one name to another; it may be empty. -/
def HasPath (states : List State) : String → String → Prop := Relation.ReflTransGen (Joins states)

theorem mem_successors_iff {a b : String} : b ∈ successors states a ↔ Joins states a b := by
  simp [successors, Joins, Option.filter_eq_some_iff, and_assoc]

/-- Whatever order the targets of a name are gone through in, the search finds the same names. -/
theorem mem_reachable_iff_hasPath (hnext : ∀ a b, b ∈ next a ↔ Joins states a b) {a b : String} :
    b ∈ reachable next (transitionCount states) a ↔ HasPath states a b := by
  have hlinks (name : String) : next name ⊆ allTargets states := by
    intro target htarget
    have hjoins := (hnext name target).mp htarget
    exact successors_subset states name (mem_successors_iff.mpr hjoins)
  have hleads : Leads next = HasPath states := by
    simp only [Leads, HasPath, hnext]
  rw [mem_reachable_iff hlinks (length_allTargets_le states), hleads]

instance (states : List State) (a b : String) : Decidable (HasPath states a b) :=
  decidable_of_iff (b ∈ reachable (successors states) (transitionCount states) a)
    (mem_reachable_iff_hasPath fun _ _ => mem_successors_iff)

/-- The states whose name a search with a list of targets for each name does not find. -/
def missedBy (next : String → List String) (states : List State) (initial : String) : List State :=
  states.filter fun s => !(reachable next (transitionCount states) initial).contains s.name

theorem missedBy_eq (hnext : ∀ a b, b ∈ next a ↔ Joins states a b) (initial : String) :
    missedBy next states initial = states.filter fun s => ¬ HasPath states initial s.name := by
  refine List.filter_congr fun s _ => ?_
  have hfound := mem_reachable_iff_hasPath hnext (a := initial) (b := s.name)
  simp [hfound]

/-- When the initial state is a state, there is one warning for each entry of the list of states
whose name no path leads to, in order, and any order of the targets gives the same; otherwise there
is no warning. -/
theorem unreachableFindings_of_paths (spec : Spec) :
    (∀ initial, spec.initial = some initial → initial ∈ spec.states.map (·.name) →
      unreachableFindings spec =
          (spec.states.filter fun s => ¬ HasPath spec.states initial s.name).map
            (fun s => unreachable initial s.name) ∧
        ∀ next : String → List String, (∀ a b, b ∈ next a ↔ Joins spec.states a b) →
          unreachableFindings spec =
            (missedBy next spec.states initial).map fun s => unreachable initial s.name) ∧
    ((∀ initial, spec.initial = some initial → initial ∉ spec.states.map (·.name)) →
      unreachableFindings spec = []) := by
  constructor
  · intro initial hinitial hmem
    have hown : unreachableFindings spec =
        (missedBy (successors spec.states) spec.states initial).map fun s =>
          unreachable initial s.name := by
      rw [unreachableFindings_eq hinitial (hasState_iff.mpr hmem), List.filter_map, List.map_map]
      rfl
    rw [hown, missedBy_eq fun _ _ => mem_successors_iff]
    exact ⟨rfl, fun next hnext => by rw [missedBy_eq hnext]⟩
  · intro hnone
    unfold unreachableFindings
    split
    · rfl
    · rename_i initial hinitial
      have hstate : hasState spec (some initial) = false := by
        rw [Bool.eq_false_iff]
        exact fun h => hnone initial hinitial (hasState_iff.mp h)
      simp [hstate]

/-- Two states of one name, two states behind a name that no path leads to, and targets that are
missing, empty or no states. -/
def tangledSpec : Spec where
  id := some "tangled"
  name := "Tangled"
  category := some "core"
  initial := some "A"
  states :=
    [{ name := "A", transitions := [⟨"GO", some "Nowhere"⟩, ⟨"GO", none⟩, ⟨"GO", some ""⟩] },
     { name := "C", transitions := [⟨"GO", some "D"⟩] },
     { name := "D" },
     { name := "A", transitions := [⟨"GO", some "B"⟩] },
     { name := "B" },
     { name := "C" },
     { name := "" }]

theorem unreachableFindings_of_paths_tangled :
    unreachableFindings tangledSpec =
        (tangledSpec.states.filter fun s => ¬ HasPath tangledSpec.states "A" s.name).map
          (fun s => unreachable "A" s.name) ∧
      (tangledSpec.states.filter fun s => ¬ HasPath tangledSpec.states "A" s.name).map (·.name) =
        ["C", "D", "C", ""] ∧
      unreachableFindings { tangledSpec with initial := some "Nowhere" } = [] := by
  have hwarned := (unreachableFindings_of_paths tangledSpec).1 "A" rfl (by decide)
  have hsilent := (unreachableFindings_of_paths { tangledSpec with initial := some "Nowhere" }).2
    fun initial hinitial => by
      obtain rfl : "Nowhere" = initial := Option.some.inj hinitial
      decide
  exact ⟨hwarned.1, by decide +kernel, hsilent⟩

end FlowMachine.Audit
