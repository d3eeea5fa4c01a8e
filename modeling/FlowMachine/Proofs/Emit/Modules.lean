import FlowMachine.Proofs.Emit.Printable
import FlowMachine.Emit.MachineModule

/-!
# Machine modules are modules

The module of a printable machine is read as a module, whatever its texts are. Its parts lead from
behind statements of the module to behind a statement of the class of the machine, through all
methods in order.
-/
namespace FlowMachine.Emit

open FlowMachine.Module FlowMachine.Text FlowMachine.Identifier Scan

variable {m : Machine} {name : String}

/-- Inside of the docstring of a module. -/
def inDocstring : Scan := { mode := .long '"' }

theorem composed_category (c : Category) : Composed c.name [.tame] :=
  .piece (.tame (List.all_eq_true.mp (by cases c <;> decide)))

theorem passes_moduleHeader (hm : Printable m) : Passes {} atTop (moduleHeader m) := by
  have hname := composed_doc hm.displayName
  have hdescription := composed_doc hm.description
  have hinitial := composed_doc hm.initial
  have hsource := composed_doc hm.source
  have hactors := hm.actors
  have hcategory := composed_category m.category
  unfold moduleHeader
  refine Passes.append (T := inDocstring)
    (Passes.append (T := inDocstring) (Passes.append (T := inDocstring) ?_
    (passes_ite (fun _ => passes_nil _) fun _ => ?_))
    (passes_ite (fun _ => passes_nil _) fun _ => ?_)) ?_
  all_goals
    apply passes_of_outlined
    · repeat' with_reducible first
        | assumption
        | apply Composed.append
        | apply Composed.chars
        | apply Outlined.cons
        | apply Outlined.nil
    · decide

theorem isLibraryImport_eq_false : ∀ line ∈ ["import copy", "import logging", "import re",
    "from dataclasses import asdict, dataclass, field",
    "from typing import Any, Dict, List, Optional"], isLibraryImport line = false := by
  decide

theorem isLibraryImport_eq_true :
    ∀ line ∈ ["from transitions.extensions import HierarchicalMachine",
    "from transitions.extensions.nesting import NestedState"], isLibraryImport line = true := by
  decide

/-- The import lines of every category, those of the library last. -/
theorem filter_imports (c : Category) : c.imports.filter (!isLibraryImport ·) =
      ["import copy", "import logging"] ++ (if c == .user then ["import re"] else []) ++
        ["from dataclasses import asdict, dataclass, field",
        "from typing import Any, Dict, List, Optional"] ∧
    c.imports.filter isLibraryImport = ["from transitions.extensions import HierarchicalMachine",
      "from transitions.extensions.nesting import NestedState"] := by
  cases c <;> simp [Category.imports, isLibraryImport_eq_false, isLibraryImport_eq_true,
    List.filter]

theorem passes_imports (hm : Printable m) :
    atTop.Passes atTop
      (m.imports.filter (!isLibraryImport ·) ++ [""] ++ m.imports.filter isLibraryImport) := by
  obtain ⟨c, hc⟩ := hm.imports
  rw [hc, (filter_imports c).1, (filter_imports c).2]
  refine .stay (.stay (.stay (.stay ?_ (passes_ite (fun _ => ?_) fun _ => passes_nil _)) ?_) ?_) ?_
  all_goals
    apply passes_of_outlined
    · repeat' with_reducible first
        | apply Composed.chars
        | apply Outlined.cons
        | apply Outlined.nil
    · decide

theorem passes_constants (hm : Printable m) : atTop.Passes atTop (constants m) := by
  have hcategory := composed_literal m.category.name
  unfold constants
  refine .stay
    (.stay (.stay (passes_imports hm) ?_) (passes_ite (fun _ => ?_) fun _ => passes_nil _)) ?_
  all_goals
    apply passes_of_outlined
    · repeat' with_reducible first
        | assumption
        | apply composed_literal
        | apply composed_tupleOf
        | apply Composed.append
        | apply Composed.chars
        | apply Outlined.cons
        | apply Outlined.nil
    · decide

theorem passes_tables (hm : Printable m) : atTop.Passes atTop (tables m) := by
  have hevents := writes_eventTable m
  have hstates := writes_stateTable fun s hs => (hm.states s hs).2
  have htransitions := writes_transitionTable m
  unfold eventTable at hevents
  unfold stateTable at hstates
  unfold transitionTable at htransitions
  have hmapping : "EVENTS: Dict[str, Dict[str, Any]] = \x7b" =
      "EVENTS: Dict[str, Dict[str, Any]] = " ++ "\x7b" := by decide
  have hlist : "STATES: List[Dict[str, Any]] = [" = "STATES: List[Dict[str, Any]] = " ++ "[" := by
    decide
  have hrows : "TRANSITIONS: List[Dict[str, Any]] = [" =
      "TRANSITIONS: List[Dict[str, Any]] = " ++ "[" := by decide
  have hbrace : "\x7b\n" = "\x7b" ++ "\n" := by decide
  have hbracket : "[\n" = "[" ++ "\n" := by decide
  unfold tables
  simp only [List.append_assoc, List.cons_append, List.nil_append]
  apply passes_of_outlined
  · repeat' with_reducible first
      | assumption
      | apply Composed.chars
      | apply Outlined.table hmapping hbrace
      | apply Outlined.table hlist hbracket
      | apply Outlined.table hrows hbracket
      | apply Outlined.cons
      | apply Outlined.nil
  · decide +kernel

/-- A field of the record is one more statement of its class. -/
theorem passes_contextLine (hm : Printable m) {f : ContextField} (hf : f ∈ m.context) :
    inClass.Passes inClass [contextLine f] := by
  have hname := hm.names f hf
  obtain ⟨hform, hdoc, hclear⟩ := hm.fields f hf
  have hcomment := composed_comment hclear
  have hdoc : f.doc.isEmpty = false := by simpa using hdoc
  unfold contextLine
  rw [hdoc, if_neg Bool.false_ne_true]
  generalize f.annotation = annotation at hform ⊢
  generalize f.default = default at hform ⊢
  simp only [fieldForms, List.mem_cons, Prod.mk.injEq, List.not_mem_nil, or_false] at hform
  rcases hform with ⟨rfl, rfl⟩ | ⟨rfl, rfl⟩ | ⟨rfl, rfl⟩ | ⟨rfl, rfl⟩ | ⟨rfl, rfl⟩
  all_goals
    apply passes_of_outlined
    · repeat' with_reducible first
        | assumption
        | apply Composed.append
        | apply Composed.chars
        | apply Outlined.cons
        | apply Outlined.nil
    · decide +kernel

theorem passes_contextClass (hm : Printable m) : atTop.Passes inClass (contextClass m) := by
  have hclass := hm.className
  have hname := composed_doc hm.displayName
  unfold contextClass
  refine Passes.append (T := inClass) (Passes.append (T := inClass) (Passes.append (T := inClass) ?_
    (passes_map fun f hf => passes_contextLine hm hf))
    (passes_ite (fun _ => ?_) fun _ => passes_nil _)) ?_
  all_goals
    apply passes_of_outlined
    · repeat' with_reducible first
        | assumption
        | apply Composed.append
        | apply Composed.chars
        | apply Outlined.cons
        | apply Outlined.nil
    · decide +kernel

/-- Behind a condition in a method. -/
def inBranch : Scan := { indents := [12, 8, 4, 0], slots := [.plain, .condition, .plain, .plain] }

/-- Where methods end: behind a statement of their own, or behind one of a condition. -/
def methodEnds : List Scan := [inMethod, inBranch]

/-- Reading the lines leads from the end of a method to one. -/
structure PassesOn (lines : List String) : Prop where
  exists_end : ∀ S ∈ methodEnds, ∃ T ∈ methodEnds, S.Passes T lines

theorem passesOn_nil : PassesOn [] := ⟨fun S hS => ⟨S, hS, passes_nil S⟩⟩

theorem passesOn_of_outlined {lines : List String} {xs : List Piece} (h : Outlined lines xs)
    (hrun : ∀ S ∈ methodEnds, ∃ T ∈ methodEnds, Piece.runAll S xs = some T) : PassesOn lines := by
  refine ⟨fun S hS => ?_⟩
  obtain ⟨T, hT, hrun⟩ := hrun S hS
  exact ⟨T, hT, passes_of_outlined h hrun⟩

theorem PassesOn.append {front back : List String} (hfront : PassesOn front)
    (hback : PassesOn back) : PassesOn (front ++ back) := by
  refine ⟨fun S hS => ?_⟩
  obtain ⟨S₁, hS₁, hpasses⟩ := hfront.exists_end S hS
  obtain ⟨S₂, hS₂, hrest⟩ := hback.exists_end S₁ hS₁
  exact ⟨S₂, hS₂, hpasses.append hrest⟩

theorem passesOn_flatMap {α : Type} {f : α → List String} {xs : List α}
    (h : ∀ x ∈ xs, PassesOn (f x)) :
    PassesOn (xs.flatMap f) := by
  induction xs with
  | nil => exact passesOn_nil
  | cons x xs ih =>
    rw [List.flatMap_cons]
    exact (h x List.mem_cons_self).append (ih fun y hy => h y (List.mem_cons_of_mem _ hy))

theorem passesOn_ite {c : Prop} [Decidable c] {front back : List String}
    (hfront : c → PassesOn front)
    (hback : ¬ c → PassesOn back) : PassesOn (if c then front else back) := by
  split_ifs with hc
  · exact hfront hc
  · exact hback hc

/-- The fields that an event brings along are taken over one by one. -/
theorem passesOn_record (has : String → Bool) :
    PassesOn ((if has "error" then
      ["        if 'error' in payload:",
       "            self.context.error = None if payload['error'] is None else " ++
       "str(payload['error'])"]
    else []) ++ ((if has "user_input" then
      ["        if 'input' in payload:",
       "            self.context.user_input = '' if payload['input'] is None else " ++
       "str(payload['input'])"]
    else []) ++ (if has "current_step" then
      ["        if isinstance(self.context.current_step, int):",
       "            self.context.current_step += 1"]
    else []))) := by
  refine (passesOn_ite (fun _ => ?_) fun _ => passesOn_nil).append
    ((passesOn_ite (fun _ => ?_) fun _ => passesOn_nil).append
      (passesOn_ite (fun _ => ?_) fun _ => passesOn_nil))
  all_goals
    apply passesOn_of_outlined
    · repeat' with_reducible first
        | apply Composed.append
        | apply Composed.chars
        | apply Outlined.cons
        | apply Outlined.nil
    · decide +kernel

set_option maxRecDepth 4000 in
theorem passes_modelClass (hm : Printable m) : inClass.Passes inMethod (modelClass m) := by
  have hclass := hm.className
  have hname := composed_doc hm.displayName
  obtain ⟨S, hS, hrecord⟩ :=
    (passesOn_record m.contextNames.contains).exists_end inMethod (by simp [methodEnds])
  unfold modelClass
  refine Passes.append (T := S) ?_ ?_
  · rw [List.append_assoc, List.append_assoc]
    refine Passes.append (T := inMethod) ?_ hrecord
    apply passes_of_outlined
    · repeat' with_reducible first
        | assumption
        | apply Composed.append
        | apply Composed.chars
        | apply Outlined.cons
        | apply Outlined.nil
    · decide +kernel
  · apply passes_of_outlined
    · repeat' with_reducible first
        | apply Composed.append
        | apply Composed.chars
        | apply Outlined.cons
        | apply Outlined.nil
    · simp only [methodEnds, List.mem_cons, List.not_mem_nil, or_false] at hS
      rcases hS with rfl | rfl <;> decide +kernel

/-- A usable name is a name where it is no reserved word of modules. -/
theorem composed_of_usable (h : Usable name) : name = "match" ∨ Composed name [.name] := by
  by_cases hmatch : name = "match"
  · exact .inl hmatch
  obtain ⟨c, rest, heq, hc, hrest⟩ := h.identifier
  have hchars : ∀ x : Char, x.isAlphanum = true ∨ x = '_' → isNameChar x = true := fun x hx =>
    by simpa [isNameChar] using hx
  have hhead : isNameChar c = true := hchars c (hc.imp_left fun h => by simp [Char.isAlphanum, h])
  have hword : IsWord name.toList := by
    rw [heq]
    exact ⟨⟨c, rest, rfl, by simpa [isStart] using hc⟩,
      List.forall_mem_cons.mpr ⟨hhead, fun x hx => hchars x (hrest x hx)⟩⟩
  refine .inr (.piece (.name hword ?_ ?_))
  · rw [String.ofList_toList]
    exact h.not_keyword
  · rwa [String.ofList_toList]

theorem passesOn_guardMethod (h : Usable name) : PassesOn (guardMethod name) := by
  unfold guardMethod
  rcases composed_of_usable h with rfl | hname
  all_goals
    apply passesOn_of_outlined
    · repeat' with_reducible first
        | assumption
        | apply Composed.append
        | apply Composed.chars
        | apply Outlined.cons
        | apply Outlined.nil
    · decide +kernel

theorem passesOn_actionMethod (m : Machine) (h : Usable name) : PassesOn (actionMethod m name) := by
  have hplain : PassesOn
      ["    def " ++ name ++ "(self, event) -> None:",
       "        logger.debug(f\"\x7bMACHINE_ID\x7d action " ++ name ++
         " in \x7bself.state\x7d\")"] := by
    rcases composed_of_usable h with rfl | hname
    all_goals
      apply passesOn_of_outlined
      · repeat' with_reducible first
          | assumption
          | apply Composed.append
          | apply Composed.chars
          | apply Outlined.cons
          | apply Outlined.nil
      · decide +kernel
  unfold actionMethod
  refine passesOn_ite (fun _ => ?_) fun _ => passesOn_ite (fun _ => ?_) fun _ =>
    passesOn_ite (fun _ => .append ?_ (passesOn_ite (fun _ => ?_) fun _ => ?_)) fun _ =>
    passesOn_ite (fun _ => .append ?_ (passesOn_ite (fun _ => ?_) fun _ => ?_)) fun _ => hplain
  all_goals
    apply passesOn_of_outlined
    · repeat' with_reducible first
        | apply Composed.append
        | apply Composed.chars
        | apply Outlined.cons
        | apply Outlined.nil
    · decide +kernel

theorem passesOn_heading {line : String} (hline : line ∈ ["    # Guards", "    # Actions"]) :
    PassesOn ["", line] := by
  simp only [List.mem_cons, List.not_mem_nil, or_false] at hline
  rcases hline with rfl | rfl
  all_goals exact passesOn_of_outlined (.cons (.chars _) (.cons (.chars _) .nil)) (by decide)

theorem passesOn_blank : PassesOn [""] :=
  passesOn_of_outlined (.cons (.chars _) .nil) (by decide)

theorem passesOn_methods (hm : Printable m) : PassesOn (methods m) := by
  refine (passesOn_ite (fun _ => passesOn_nil) fun _ =>
    (passesOn_heading (by simp)).append ?_).append
    (passesOn_ite (fun _ => passesOn_nil) fun _ => (passesOn_heading (by simp)).append ?_)
  · exact passesOn_flatMap fun guard hguard =>
      passesOn_guardMethod (hm.methods guard (List.mem_append_left _ hguard))
  · exact passesOn_flatMap fun action haction =>
      passesOn_blank.append
        (passesOn_actionMethod m (hm.methods action (List.mem_append_right _ haction)))

set_option maxRecDepth 4000 in
theorem passes_builder (hm : Printable m) {S : Scan} (hS : S ∈ methodEnds) :
    S.Passes inClass (builder m) := by
  have hclass := hm.className
  unfold builder
  apply passes_of_outlined
  · repeat' with_reducible first
      | assumption
      | apply Composed.append
      | apply Composed.chars
      | apply Outlined.cons
      | apply Outlined.nil
  · simp only [methodEnds, List.mem_cons, List.not_mem_nil, or_false] at hS
    rcases hS with rfl | rfl <;> decide +kernel

/-- The module of a machine is one, whatever its texts are. -/
theorem isModule_machineModule (hm : Printable m) : IsModule (machineModule m) := by
  obtain ⟨S, hS, hmethods⟩ := (passesOn_methods hm).exists_end inMethod (by simp [methodEnds])
  have hmodel :=
    (((passes_moduleHeader hm).append (passes_constants hm)).append (passes_tables hm)).append
    (passes_contextClass hm)
  exact isModule_of_passes
    (((hmodel.append (passes_modelClass hm)).append hmethods).append (passes_builder hm hS)) rfl

end FlowMachine.Emit
