import FlowMachine.Finding
import Mathlib.Data.List.Basic
import Mathlib.Tactic.SplitIfs

/-!
# Kinds of findings

A kind is a severity and a category. What is found by one step of the work can be told from what
other steps find when each of them has kinds of its own.
-/
namespace FlowMachine

@[simp] theorem errorsOf_nil : errorsOf [] = [] := rfl

@[simp]
theorem errorsOf_append (fs gs : List Finding) : errorsOf (fs ++ gs) = errorsOf fs ++ errorsOf gs :=
  List.filter_append fs gs

theorem errorsOf_ite {p : Prop} [Decidable p] (fs gs : List Finding) :
    errorsOf (if p then fs else gs) = if p then errorsOf fs else errorsOf gs := by
  split_ifs <;> rfl

theorem errorsOf_cons (f : Finding) (fs : List Finding) :
    errorsOf (f :: fs) = if f.severity = .error then f :: errorsOf fs else errorsOf fs := by
  simp [errorsOf, List.filter_cons]

theorem warningsOf_cons (f : Finding) (fs : List Finding) :
    warningsOf (f :: fs) = if f.severity = .warning then f :: warningsOf fs else warningsOf fs := by
  simp [warningsOf, List.filter_cons]

/-- Every finding has one of the kinds. -/
def Within (kinds : List (Severity × String)) (fs : List Finding) : Prop :=
  ∀ f ∈ fs, (f.severity, f.category) ∈ kinds

section Within

variable {kinds : List (Severity × String)} {fs gs : List Finding}

@[simp] theorem within_nil : Within kinds [] := by simp [Within]

@[simp] theorem within_singleton {f : Finding} :
    Within kinds [f] ↔ (f.severity, f.category) ∈ kinds := by
  simp [Within]

theorem within_error {message category : String} {line : Option Int} {suggestion : Option String} :
    Within kinds [.error message category line suggestion] ↔ (.error, category) ∈ kinds :=
  within_singleton

theorem within_warning {message category : String} {line : Option Int}
    {suggestion : Option String} :
    Within kinds [.warning message category line suggestion] ↔ (.warning, category) ∈ kinds :=
  within_singleton

@[simp] theorem within_append : Within kinds (fs ++ gs) ↔ Within kinds fs ∧ Within kinds gs := by
  simp [Within, or_imp, forall_and]

@[simp] theorem within_ite {p : Prop} [Decidable p] :
    Within kinds (if p then fs else gs) ↔ (p → Within kinds fs) ∧ (¬ p → Within kinds gs) := by
  split_ifs with h <;> simp [h]

@[simp] theorem within_flatMap {α : Type} {xs : List α} {f : α → List Finding} :
    Within kinds (xs.flatMap f) ↔ ∀ x ∈ xs, Within kinds (f x) := by
  simp only [Within, List.mem_flatMap]
  exact ⟨fun h x hx g hg => h g ⟨x, hx, hg⟩, fun h g ⟨x, hx, hg⟩ => h x hx g hg⟩

theorem Within.mono {more : List (Severity × String)} (h : Within kinds fs)
    (hkinds : kinds ⊆ more) :
    Within more fs := fun f hf => hkinds (h f hf)

/-- Findings of other kinds are not picked. -/
theorem Within.filter_eq_nil (h : Within kinds fs) {pick : Finding → Bool}
    (hpick : ∀ f, (f.severity, f.category) ∈ kinds → pick f = false) : fs.filter pick = [] :=
  List.filter_eq_nil_iff.mpr fun f hf => by simp [hpick f (h f hf)]

theorem Within.errorsOf_eq_nil (h : Within kinds fs) (hkinds : ∀ kind ∈ kinds, kind.1 = .warning) :
    errorsOf fs = [] :=
  h.filter_eq_nil fun f hf => by
    have hwarning : f.severity = .warning := hkinds _ hf
    simp [hwarning]

theorem Within.errorsOf_eq_self (h : Within kinds fs) (hkinds : ∀ kind ∈ kinds, kind.1 = .error) :
    errorsOf fs = fs :=
  List.filter_eq_self.mpr fun f hf => beq_iff_eq.mpr (hkinds _ (h f hf))

end Within

end FlowMachine
