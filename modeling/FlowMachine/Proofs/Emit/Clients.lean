import FlowMachine.Proofs.Emit.Printable
import FlowMachine.Emit.Service

/-!
# Scripts, services and boundary suites are modules

The demo script, the session service and the boundary suite of a printable machine are read as
modules, whatever its texts are.
-/
namespace FlowMachine.Emit

open FlowMachine.Module FlowMachine.Text FlowMachine.Identifier Scan

/-! ## Scripts and services -/

set_option maxRecDepth 4000 in
/-- The demo script of a machine is a module, whatever its texts are. -/
theorem isModule_demoScript {m : Machine} (hm : Printable m) : IsModule (demoScript m) := by
  have hname := composed_doc hm.displayName
  have hmodule := hm.moduleName
  have husage := writes_usage m
  have hhead : "USAGE = [" = "USAGE = " ++ "[" := by decide
  have hopen : "[\n" = "[" ++ "\n" := by decide
  refine isModule_of_passes (S := { indents := [4, 0], slots := [.plain, .condition] }) ?_ rfl
  simp only [List.cons_append, List.nil_append]
  apply passes_of_outlined
  · repeat' with_reducible first
      | assumption
      | apply Composed.append
      | apply Composed.chars
      | apply Outlined.table hhead hopen
      | apply Outlined.cons
      | apply Outlined.nil
  · decide +kernel

set_option maxRecDepth 4000 in
/-- The session service of a machine is a module, whatever its texts are. -/
theorem isModule_sessionService {m : Machine} (hm : Printable m) (limit : Nat) :
    IsModule (sessionService (toString limit) m) := by
  have hname := composed_doc hm.displayName
  have hlimit := composed_number limit
  have hmodule := hm.moduleName
  have hclass := hm.className
  unfold sessionService
  refine isModule_of_passes (S := inMethod) ?_ rfl
  apply passes_of_outlined
  · repeat' with_reducible first
      | assumption
      | apply composed_tupleOf
      | apply Composed.append
      | apply Composed.chars
      | apply Outlined.cons
      | apply Outlined.nil
  · decide +kernel

/-! ## Boundary suites -/

set_option maxRecDepth 4000 in
/-- The boundary suite of a machine is a module, whatever its texts are. -/
theorem isModule_boundarySuite {m : Machine} (hm : Printable m) : IsModule (boundarySuite m) := by
  have hname := composed_doc hm.displayName
  have hmodule := hm.moduleName
  have hclass := hm.className
  have hcases := writes_cases m
  have hhead : "EVENT_CASES = [" = "EVENT_CASES = " ++ "[" := by decide
  have hopen : "[\n" = "[" ++ "\n" := by decide
  refine isModule_of_passes
    (S := { indents := [12, 8, 4, 0], slots := [.plain, .loop, .plain, .plain] }) ?_ rfl
  unfold boundaries boundaryLine
  simp only [List.cons_append, List.nil_append, List.map_cons, List.map_nil]
  apply passes_of_outlined
  · repeat' with_reducible first
      | assumption
      | apply composed_literal
      | apply composed_listOf
      | apply Composed.append
      | apply Composed.chars
      | apply Outlined.table hhead hopen
      | apply Outlined.cons
      | apply Outlined.nil
  · decide +kernel

end FlowMachine.Emit
