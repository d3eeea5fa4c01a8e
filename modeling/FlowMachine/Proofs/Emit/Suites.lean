import FlowMachine.Proofs.Emit.Printable
import FlowMachine.Proofs.Emit.Scenarios
import FlowMachine.Emit.Smoke
import FlowMachine.Emit.Transitions

/-!
# Suites of tests are modules

The transition suite and the smoke suite of a printable machine are read as modules, whatever its
texts are.
-/
namespace FlowMachine.Emit

open FlowMachine.Module FlowMachine.Text FlowMachine.Identifier Scan

/-! ## Transition suites -/

variable {m : Machine} {x : Scenario}

/-- A tame text is written into a docstring as it is. -/
theorem docChars_of_isTame {cs : List Char} (h : ∀ c ∈ cs, isTame c = true) : docChars cs = cs := by
  induction cs with
  | nil => rfl
  | cons c cs ih =>
    obtain ⟨hc, hcs⟩ := List.forall_mem_cons.mp h
    have hne : c ≠ '"' ∧ c ≠ '\\' := by constructor <;> rintro rfl <;> cases hc
    have hopen : ¬ ['"', '"', '"'] <+: c :: cs := fun hprefix =>
      hne.1 (List.cons_prefix_cons.mp hprefix).1.symm
    rw [docChars_cons hopen, if_neg hne.2, ih hcs, List.singleton_append]

/-- Sample payloads, as arguments behind an event. -/
def sampleForms : List String :=
  ["", ", input='sample input'", ", error='sample error'", ", data=\x7b'value': 'data'\x7d"]

/-- The texts of a scenario have their places in its test. -/
structure Testable (x : Scenario) : Prop where
  name : Composed x.name [.word]
  source : Composed (doc x.source) [.doc]
  event : Composed (doc x.event) [.doc]
  target : Composed (doc (x.target.getD "")) [.tame]
  sample : String.join (x.payload.map fun p => ", " ++ p.1 ++ "=" ++ p.2) ∈ sampleForms

theorem sampleFields_mem (hm : Printable m) (event : String) :
    String.join ((sampleFields m event).map fun p => ", " ++ p.1 ++ "=" ++ p.2) ∈ sampleForms := by
  unfold sampleFields
  split
  · next e he =>
    obtain ⟨kind, hkind⟩ := hm.payload e (List.mem_of_find?_eq_some he)
    rw [hkind]
    cases kind <;> decide
  · decide

theorem composed_scenarioName (n : Nat) (source event : String) :
    Composed (scenarioName n source event) [.word] := by
  have hname := scenarioName_eq n source event
  obtain ⟨c, rest, heq, hc, hrest⟩ := (usable_scenarioName n source event).identifier
  have hword : IsWord (scenarioName n source event).toList := by
    have hchars : ∀ x : Char, x.isAlphanum = true ∨ x = '_' → isNameChar x = true := fun x hx =>
      by simpa [isNameChar] using hx
    rw [heq]
    refine ⟨⟨c, rest, rfl, by simpa [isStart] using hc⟩,
      List.forall_mem_cons.mpr ⟨hchars c ?_, fun x hx => hchars x (hrest x hx)⟩⟩
    exact hc.imp_left fun h => by simp [Char.isAlphanum, h]
  refine .piece (.word hword ?_)
  rw [hname]
  rfl

theorem payload_of_mem {n : Nat} {seen : List (String × String)} {rows : List (State × Transition)}
    (h : x ∈ scenariosFrom m n seen rows) : x.payload = sampleFields m x.event := by
  induction rows generalizing n seen with
  | nil => cases h
  | cons row rows ih =>
    rcases List.mem_cons.mp h with rfl | h
    · rfl
    · exact ih h

/-- The scenarios of a printable machine can be tested. -/
theorem testable_of_mem (hm : Printable m) (hx : x ∈ scenarios m) : Testable x := by
  obtain ⟨before, row, after, hrows, hfor⟩ := exists_row_of_mem hx
  have hrow := mem_table.mp (hrows ▸ List.mem_append_right before List.mem_cons_self)
  refine ⟨hfor.name_eq ▸ composed_scenarioName _ _ _,
    composed_doc (hfor.source_eq ▸ (hm.states _ hrow.1).1),
    composed_doc (hfor.event_eq ▸ hm.events _ hrow.1 _ hrow.2), .piece (.tame ?_),
    payload_of_mem hx ▸ sampleFields_mem hm x.event⟩
  have htame : ∀ c ∈ (x.target.getD "").toList, isTame c = true := by
    cases htarget : x.target with
    | none => simp
    | some target => exact hm.targets _ hrow.1 _ hrow.2 target (hfor.target_eq ▸ htarget)
  rwa [doc, String.toList_ofList, docChars_of_isTame htame]

/-- The head of a test with the event that it sends. -/
theorem passes_scenarioHead (hx : Testable x) {S : Scan} (hS : S ∈ [inClass, inMethod]) :
    S.Passes inMethod
      ["",
       "    def " ++ x.name ++ "(self):",
       "        \"\"\"" ++ doc x.source ++ " --" ++ doc x.event ++ "--> " ++
         doc (x.target.getD "") ++ "\"\"\"",
       "        model = machine_in(" ++ literal x.source ++ ")",
       "        assert model.dispatch(" ++ literal x.event ++
         String.join (x.payload.map fun p => ", " ++ p.1 ++ "=" ++ p.2) ++ ") is True"] := by
  obtain ⟨hname, hsource, hevent, htarget, hsample⟩ := hx
  generalize String.join (x.payload.map fun p => ", " ++ p.1 ++ "=" ++ p.2) = sample at hsample ⊢
  simp only [sampleForms, List.mem_cons, List.not_mem_nil, or_false] at hsample hS
  rcases hsample with rfl | rfl | rfl | rfl
  all_goals
    apply passes_of_outlined
    · repeat' with_reducible first
        | assumption
        | apply composed_literal
        | apply Composed.append
        | apply Composed.chars
        | apply Outlined.cons
        | apply Outlined.nil
    · rcases hS with rfl | rfl <;> decide +kernel

theorem literalOr_cases (target : Option String) :
    literalOr target = "None" ∨ ∃ s, literalOr target = literal s := by
  cases target with
  | none => exact .inl rfl
  | some s => exact .inr ⟨s, rfl⟩

/-- What a test expects: the target of a first scenario, which may be missing, or one of the targets
of a later one. -/
theorem passes_expectation (x : Scenario) : inMethod.Passes inMethod
    (if x.first then
      ["        assert model.state == " ++ literalOr x.target,
       "        assert model.history[-1] == " ++ literalOr x.target] ++
        (if x.final then ["        assert model.finished"] else [])
    else
      ["        # an earlier edge with the same event takes precedence",
       "        assert model.state in " ++ literalTuple (x.targets.map literalOr)]) := by
  have htuple : Composed (literalTuple (x.targets.map literalOr)) [.data] :=
    .piece (.data (writes_literalTuple (List.forall_mem_map.mpr fun s _ => isValue_literalOr s)))
  refine passes_ite (fun _ => .stay ?_ (passes_ite (fun _ => ?_) fun _ => passes_nil _)) fun _ => ?_
  · rcases literalOr_cases x.target with heq | ⟨s, heq⟩
    all_goals
      rw [heq]
      apply passes_of_outlined
      · repeat' with_reducible first
          | apply composed_literal
          | apply Composed.append
          | apply Composed.chars
          | apply Outlined.cons
          | apply Outlined.nil
      · decide +kernel
  · exact passes_of_outlined (.cons (.chars _) .nil) (by decide +kernel)
  · exact passes_of_outlined (.cons (.chars _) (.cons (.append (.chars _) htuple) .nil))
      (by decide +kernel)

/-- The test of a scenario is a method. -/
theorem passes_scenarioLines (hx : Testable x) {S : Scan} (hS : S ∈ [inClass, inMethod]) :
    S.Passes inMethod (scenarioLines x) :=
  (passes_scenarioHead hx hS).append (passes_expectation x)

/-- What stands between the class of the tests and the next one: the tests, or `lines` where there
are none. -/
theorem passes_scenarios {xs : List Scenario} (hxs : ∀ x ∈ xs, Testable x) {lines : List String}
    (hlines : inClass.Passes inMethod lines) :
    inClass.Passes inMethod (xs.flatMap scenarioLines ++ if xs.isEmpty then lines else []) := by
  cases xs with
  | nil => exact hlines
  | cons x rest =>
    rw [List.flatMap_cons, List.append_assoc]
    refine (passes_scenarioLines (hxs x List.mem_cons_self) (by simp)).append
      (Passes.append (T := inMethod) ?_ (passes_nil _))
    exact passes_flatMap fun y hy =>
      passes_scenarioLines (hxs y (List.mem_cons_of_mem _ hy)) (by simp)

set_option maxRecDepth 4000 in
/-- The transition suite of a machine is a module, whatever its texts are. -/
theorem isModule_transitionSuite (hm : Printable m) : IsModule (transitionSuite m) := by
  have hmodule := hm.moduleName
  have hclass := hm.className
  have hdisplay := composed_doc hm.displayName
  refine isModule_of_passes (S := inMethod) ?_ rfl
  refine Passes.append (T := inMethod) ?_ ?_
  · rw [List.append_assoc]
    refine Passes.append (T := inClass) ?_ (passes_scenarios (fun _ hx => testable_of_mem hm hx)
      (passes_of_outlined (.cons (.chars _) (.cons (.chars _) (.cons (.chars _) .nil)))
        (by decide +kernel)))
    apply passes_of_outlined
    · repeat' with_reducible first
        | assumption
        | apply Composed.append
        | apply Composed.chars
        | apply Outlined.cons
        | apply Outlined.nil
    · decide
  · apply passes_of_outlined
    · repeat' with_reducible first
        | assumption
        | apply composed_listOf
        | apply Composed.append
        | apply Composed.chars
        | apply Outlined.cons
        | apply Outlined.nil
    · decide +kernel

/-! ## Smoke suites -/

/-- The check of a default is one more statement of the method. -/
theorem passes_defaultCheck (hm : Printable m) {f : ContextField} (hf : f ∈ m.context) :
    inMethod.Passes inMethod [defaultCheck f] := by
  have hname := hm.names f hf
  have hcheck : ∀ form ∈ fieldForms, (if form.2 == "None" then "is None" else "== " ++ form.2) ∈
      ["is None", "== \"\"", "== False", "== 1", "== 0"] := by decide
  have hcheck := hcheck _ (hm.fields f hf).1
  unfold defaultCheck
  generalize (if f.default == "None" then "is None" else "== " ++ f.default) = check at hcheck ⊢
  simp only [List.mem_cons, List.not_mem_nil, or_false] at hcheck
  rcases hcheck with rfl | rfl | rfl | rfl | rfl
  all_goals
    refine passes_of_outlined
      (.cons (.append (.append (.append (.chars _) hname) (.chars _)) (.chars _)) .nil) ?_
    decide +kernel

set_option maxRecDepth 4000 in
theorem passes_smokeClass (hm : Printable m) : Passes {} inMethod (smokeClass m) := by
  have hmodule := hm.moduleName
  have hclass := hm.className
  have hname := composed_doc hm.displayName
  have hsource : Composed (doc (if (sourceName m).isEmpty then m.id else sourceName m)) [.doc] := by
    split_ifs
    · exact composed_doc hm.id
    · exact composed_doc hm.source
  unfold smokeClass
  refine Passes.append (T := inMethod) (Passes.append (T := inMethod) ?_ ?_) ?_
  · apply passes_of_outlined
    · repeat' with_reducible first
        | assumption
        | apply composed_literal
        | apply composed_number
        | apply composed_tupleOf
        | apply composed_listOf
        | apply Composed.append
        | apply Composed.chars
        | apply Outlined.cons
        | apply Outlined.nil
    · decide +kernel
  · exact passes_map fun f hf => passes_defaultCheck hm hf
  · apply passes_of_outlined
    · repeat' with_reducible first
        | assumption
        | apply Composed.append
        | apply Composed.chars
        | apply Outlined.cons
        | apply Outlined.nil
    · decide +kernel

set_option maxRecDepth 4000 in
theorem passes_dispatchClass (hm : Printable m) : inMethod.Passes inMethod (dispatchClass m) := by
  have hclass := hm.className
  unfold dispatchClass
  apply passes_of_outlined
  · repeat' with_reducible first
      | assumption
      | apply composed_listOf
      | apply Composed.append
      | apply Composed.chars
      | apply Outlined.cons
      | apply Outlined.nil
  · decide +kernel

/-- The smoke suite of a machine is a module, whatever its texts are. -/
theorem isModule_smokeSuite (hm : Printable m) (comprehensive : Bool) :
    IsModule (smokeSuite comprehensive m) :=
  isModule_of_passes ((passes_smokeClass hm).append
    (passes_ite (fun _ => passes_dispatchClass hm) fun _ => passes_nil _)) rfl

end FlowMachine.Emit
