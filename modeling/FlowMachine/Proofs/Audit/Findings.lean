import FlowMachine.Audit
import FlowMachine.Proofs.Findings

/-!
# Kinds of audit findings

Each part of the audit makes findings of its own kinds, a kind being a severity and a category. What
one part finds can therefore be told from what the others find.
-/
namespace FlowMachine

namespace Audit

variable (o : CheckOptions) (spec : Spec)

@[simp] theorem kind_error (message category : String) (hint : Option String) :
    ((error message category hint).severity, (error message category hint).category) =
      (Severity.error, category) := rfl

@[simp] theorem kind_warning (message category : String) (hint : Option String) :
    ((warning message category hint).severity, (warning message category hint).category) =
      (Severity.warning, category) := rfl

@[simp] theorem errorsOf_error (message category : String) (hint : Option String) :
    errorsOf [error message category hint] = [error message category hint] := rfl

@[simp] theorem errorsOf_warning (message category : String) (hint : Option String) :
    errorsOf [warning message category hint] = [] := rfl

theorem within_metadataFindings :
    Within [(.error, "missing_metadata"), (.error, "invalid_category")]
      (metadataFindings o spec) := by
  simp [metadataFindings]

theorem within_outlineFindings :
    Within [(.warning, "too_many_states"), (.error, "missing_initial_state"),
      (.error, "invalid_initial_state")] (outlineFindings o spec) := by
  simp [outlineFindings]

theorem within_stateFindingsFrom (id : String) (before states : List State) :
    Within [(.error, "duplicate_state"), (.warning, "too_many_transitions"),
      (.error, "final_state_transitions"), (.warning, "dead_end_state")]
      (stateFindingsFrom o id before states) := by
  induction states generalizing before with
  | nil => simp [stateFindingsFrom]
  | cons s rest ih =>
    rw [stateFindingsFrom, within_append]
    exact ⟨by simp [stateFindings], ih _⟩

theorem within_targetFindings :
    Within [(.error, "invalid_transition_target")] (targetFindings spec) := by
  simp [targetFindings]

theorem within_unreachableFindings :
    Within [(.warning, "unreachable_state")] (unreachableFindings spec) := by
  unfold unreachableFindings
  split
  · simp
  · split_ifs
    · simp
    · intro f hf
      obtain ⟨s, -, rfl⟩ := List.mem_map.mp hf
      simp

theorem within_categoryFindings :
    Within [(.warning, "category_rule"), (.warning, "missing_error_handling"),
      (.warning, "missing_navigation")] (categoryFindings o spec) := by
  simp [categoryFindings, userStateFindings]

theorem within_namingFindings : Within [(.warning, "naming")] (namingFindings o spec) := by
  simp [namingFindings]

/-! ## Repeated names -/

/-- A repeated name is an error. -/
theorem errorsOf_repeatedNames (before : List String) (specs : List Spec) :
    errorsOf (repeatedNames before specs) = repeatedNames before specs := by
  induction specs generalizing before with
  | nil => rfl
  | cons spec specs ih =>
    rw [repeatedNames, errorsOf_append, ih]
    split_ifs <;> rfl

theorem repeatedNames_eq_nil_iff {before : List String} {specs : List Spec} :
    repeatedNames before specs = [] ↔
      (specs.map (·.name)).Nodup ∧ ∀ spec ∈ specs, spec.name ∉ before := by
  induction specs generalizing before with
  | nil => simp [repeatedNames]
  | cons spec specs ih =>
    have hfirst : (if before.contains spec.name then
        [error s!"Machine name '{spec.name}' is used by multiple machines" "duplicate_machine" none]
        else []) = [] ↔ spec.name ∉ before := by
      split_ifs with hcontains <;> simp_all
    rw [repeatedNames, List.append_eq_nil_iff, hfirst, ih]
    simp only [List.map_cons, List.nodup_cons, List.forall_mem_cons, List.mem_append,
      List.mem_singleton, not_or, List.mem_map, not_exists, not_and]
    exact ⟨fun ⟨hnew, hnodup, hrest⟩ => ⟨⟨fun other hother => (hrest other hother).2, hnodup⟩, hnew,
        fun other hother => (hrest other hother).1⟩,
      fun ⟨⟨hapart, hnodup⟩, hnew, hrest⟩ => ⟨hnew, hnodup,
        fun other hother => ⟨hrest other hother, hapart other hother⟩⟩⟩

end Audit

end FlowMachine
