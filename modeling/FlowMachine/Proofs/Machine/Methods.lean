import FlowMachine.Emit.MachineModule
import FlowMachine.Proofs.Diagram.WellFormed
import FlowMachine.Proofs.Machine.Names

/-!
# Methods of the model class

An action whose name is not free is renamed, and the new name is not looked up again. This module
says exactly when a guard and an action end up under one name, and that this is exactly when the
class body defines a method twice, so that the action takes the place of the guard.
-/
namespace FlowMachine

open FlowMachine.Identifier FlowMachine.Text

namespace Diagram

/-- No action that is renamed gets the name of a guard. -/
def RenamesApart (d : Diagram) : Prop :=
  ∀ e ∈ d.edges, ∀ a, Machine.given e.action = some a →
    Occupied (Machine.guardsOf d.edges) (snake a) →
    "action_" ++ trimUnderscores (snake a) ∉ Machine.guardsOf d.edges

end Diagram

namespace Machine

/-- The names of the standard actions are kept free of guards. -/
theorem not_mem_standardActions_of_mem_guardsOf {edges : List Edge} {name : String}
    (h : name ∈ guardsOf edges) : name ∉ standardActions := by
  obtain ⟨e, -, ⟨g, -, rfl⟩ | ⟨-, rfl⟩⟩ := mem_guardsOf.mp h
  · by_cases hocc : Occupied standardActions (snake g)
    · rw [guardMethodName, method_of_occupied hocc]
      exact append_not_mem (by decide) _
    · rw [guardMethodName, method_of_free hocc]
      exact fun hmem => hocc (.inr (.inl hmem))
  · rw [sourceCheck_eq]
    exact append_not_mem (by decide) _

/-- The action of every edge of a well-formed diagram is done by the state that the edge leaves. -/
theorem method_mem_actionsOf {d : Diagram} (h : d.WellFormed) {e : Edge} (he : e ∈ d.edges)
    {a : String} (ha : given e.action = some a) :
    method a "action" (guardsOf d.edges) ∈ actionsOf (statesOf d) := by
  obtain ⟨n, hn, hid⟩ := List.mem_map.mp (h.edges_closed e he).1
  have hleaves : e ∈ d.outgoing n.id := List.mem_filter.mpr ⟨he, by simp [hid]⟩
  have hdoes : method a "action" (guardsOf d.edges) ∈
      (transitionOf (guardsOf d.edges) e).actions := by
    simp [transitionOf, ha]
  refine mem_actionsOf_statesOf.mpr ⟨_, List.mem_map_of_mem hn, List.mem_append.mpr (.inr ?_)⟩
  exact List.mem_flatMap.mpr ⟨_, List.mem_map_of_mem hleaves, hdoes⟩

/-- A guard shares its name with an action exactly when an action was renamed to it: a name that was
free stays apart from all guards. -/
theorem mem_actionsOf_iff_of_mem_guardsOf {d : Diagram} (h : d.WellFormed) {name : String}
    (hguard : name ∈ guardsOf d.edges) : name ∈ actionsOf (statesOf d) ↔
      ∃ e ∈ d.edges, ∃ a, given e.action = some a ∧ Occupied (guardsOf d.edges) (snake a) ∧
        name = "action_" ++ trimUnderscores (snake a) := by
  constructor
  · intro haction
    obtain ⟨s, hs, hdoes⟩ := mem_actionsOf_statesOf.mp haction
    obtain hstandard | ⟨e, he, a, ha, rfl⟩ := action_cases hs hdoes
    · exact absurd hstandard (not_mem_standardActions_of_mem_guardsOf hguard)
    · by_cases hocc : Occupied (guardsOf d.edges) (snake a)
      · exact ⟨e, he, a, ha, hocc, method_of_occupied hocc⟩
      · rw [method_of_free hocc] at hguard
        exact absurd (.inr (.inl hguard)) hocc
  · rintro ⟨e, he, a, ha, hocc, rfl⟩
    have hmem := method_mem_actionsOf h he ha
    rwa [method_of_occupied hocc] at hmem

theorem guards_apart_iff {d : Diagram} (h : d.WellFormed) :
    (∀ name ∈ guardsOf d.edges, name ∉ actionsOf (statesOf d)) ↔ d.RenamesApart := by
  constructor
  · intro hapart e he a ha hocc hguard
    exact hapart _ hguard
      ((mem_actionsOf_iff_of_mem_guardsOf h hguard).mpr ⟨e, he, a, ha, hocc, rfl⟩)
  · intro hrenames name hguard haction
    obtain ⟨e, he, a, ha, hocc, rfl⟩ := (mem_actionsOf_iff_of_mem_guardsOf h hguard).mp haction
    exact hrenames e he a ha hocc hguard

end Machine

namespace Emit

/-- The name of the method that a line of a class body starts to define. -/
def methodIn? (line : List Char) : Option String :=
  (behind? [' ', ' ', ' ', ' ', 'd', 'e', 'f', ' '] line).map fun rest =>
    String.ofList (rest.takeWhile (· != '('))

/-- The methods that the lines of a class body define, in order. -/
def definedMethods (lines : List String) : List String :=
  lines.flatMap fun line => (methodIn? line.toList).toList

theorem definedMethods_append (ls ms : List String) :
    definedMethods (ls ++ ms) = definedMethods ls ++ definedMethods ms := List.flatMap_append

/-- Fixed lines are looked at as characters, without going through their encoding. -/
theorem definedMethods_ofList (lines : List (List Char)) :
    definedMethods (lines.map String.ofList) = lines.flatMap fun line =>
      (methodIn? line).toList := by
  simp [definedMethods, List.flatMap_map]

theorem definedMethods_cons {line : String} {method : Option String}
    (h : methodIn? line.toList = method) {ls found : List String}
    (hrest : definedMethods ls = found) :
    definedMethods (line :: ls) = method.toList ++ found := by
  rw [← List.singleton_append, definedMethods_append, hrest]
  simp [definedMethods, h]

theorem definedMethods_fixed (lines : List (List Char)) {ls found : List String}
    (hrest : definedMethods ls = found) :
    definedMethods (lines.map String.ofList ++ ls) =
      (lines.flatMap fun line => (methodIn? line).toList) ++ found := by
  rw [definedMethods_append, definedMethods_ofList, hrest]

theorem definedMethods_ite (c : Bool) {ls : List String} (h : definedMethods ls = []) :
    definedMethods (if c then ls else []) = [] := by
  cases c
  · rfl
  · exact h

theorem methodIn?_definition {name : String} (args : String) (hname : '(' ∉ name.toList)
    (hargs : args.toList.head? = some '(') :
    methodIn? ("    def " ++ name ++ args).toList = some name := by
  obtain ⟨rest, hrest⟩ : ∃ rest, args.toList = '(' :: rest := by
    cases hl : args.toList with
    | nil => simp [hl] at hargs
    | cons c rest =>
      obtain rfl : c = '(' := by simpa [hl] using hargs
      exact ⟨rest, rfl⟩
  have htake : (name.toList ++ '(' :: rest).takeWhile (· != '(') = name.toList := by
    rw [List.takeWhile_append_of_pos]
    · simp
    · intro c hc
      simpa using fun h : c = '(' => hname (h ▸ hc)
  have hbehind : behind? [' ', ' ', ' ', ' ', 'd', 'e', 'f', ' ']
      ("    def " ++ name ++ args).toList = some (name.toList ++ '(' :: rest) := by
    rw [behind?_eq_some_iff]
    simp [hrest]
  rw [methodIn?, hbehind, Option.map_some, htake, String.ofList_toList]

/-- A line that is indented more deeply defines no method of the class. -/
theorem methodIn?_deep (cs : List Char) (tail : String) :
    methodIn? (String.ofList (' ' :: ' ' :: ' ' :: ' ' :: ' ' :: cs) ++ tail).toList = none := by
  simp [methodIn?, behind?]

/-- The methods that every model class has. -/
def fixedMethods : List String :=
  ["__init__", "finished", "dispatch", "available_events", "snapshot", "_record_payload"]

theorem definedMethods_modelClass (m : Machine) : definedMethods (modelClass m) = fixedMethods := by
  have hclass : methodIn? ("class " ++ m.className ++ "Model:").toList = none := by
    simp [methodIn?, behind?]
  have hdoc : methodIn? ("    \"\"\"Model object driven by the " ++ doc m.displayName ++
      " machine.").toList = none := by
    simp [methodIn?, behind?]
  have hinit : methodIn? ("    def __init__(self, context: Optional[" ++ m.className ++
      "Context] = None,").toList = some "__init__" := by
    simp [methodIn?, behind?]
  have hcontext : methodIn? ("        self.context = context if context is not None else " ++
      m.className ++ "Context()").toList = none := by
    rw [String.append_assoc]
    exact methodIn?_deep _ _
  unfold modelClass
  rw [definedMethods_append, definedMethods_append, definedMethods_append, definedMethods_append,
    definedMethods_ite _ (definedMethods_fixed [_] (definedMethods_cons (methodIn?_deep _ _) rfl)),
    definedMethods_ite _ (definedMethods_fixed [_] (definedMethods_cons (methodIn?_deep _ _) rfl)),
    definedMethods_ite _ (definedMethods_ofList [_, _]),
    definedMethods_cons (methodIn?_deep _ _) rfl,
    Option.toList_none, List.append_nil, List.append_nil, List.append_nil, List.nil_append]
  -- The lines that hold a name of the machine stand between runs of 5, 1, 11 and 19 fixed lines.
  refine (List.append_nil _).trans ((definedMethods_cons hclass (definedMethods_cons hdoc
    (definedMethods_fixed [_, _, _, _, _] (definedMethods_cons hinit (definedMethods_fixed [_]
    (definedMethods_cons hcontext (definedMethods_fixed [_, _, _, _, _, _, _, _, _, _, _]
    (definedMethods_cons (methodIn?_deep _ _) (definedMethods_ofList
    [_, _, _, _, _, _, _, _, _, _, _, _, _, _, _, _, _, _, _]))))))))).trans ?_)
  rfl

theorem definedMethods_guardMethod {guard : String} (h : '(' ∉ guard.toList) :
    definedMethods (guardMethod guard) = [guard] := by
  have hdef := methodIn?_definition "(self, event) -> bool:" h (by decide)
  exact definedMethods_fixed [_] (definedMethods_cons hdef (definedMethods_ofList [_, _]))

theorem definedMethods_actionMethod (m : Machine) {action : String} (h : '(' ∉ action.toList) :
    definedMethods (actionMethod m action) = [action] := by
  unfold actionMethod
  simp only [beq_iff_eq]
  split_ifs with htrace hcleanup huser hphone hagent hknown
  · subst htrace
    exact definedMethods_ofList [_, _, _]
  · subst hcleanup
    exact definedMethods_ofList [_, _, _]
  · subst huser
    exact definedMethods_ofList [_, _, _, _, _]
  · subst huser
    exact definedMethods_ofList [_, _, _]
  · subst hagent
    exact definedMethods_ofList [_, _, _]
  · subst hagent
    exact definedMethods_ofList [_, _, _]
  · have hdef := methodIn?_definition "(self, event) -> None:" h (by decide)
    have hlog : methodIn? ("        logger.debug(f\"\x7bMACHINE_ID\x7d action " ++ action ++
        " in \x7bself.state\x7d\")").toList = none := by
      rw [String.append_assoc]
      exact methodIn?_deep _ _
    exact definedMethods_cons hdef (definedMethods_cons hlog rfl)

theorem definedMethods_flatMap {xs : List String} {f : String → List String}
    (h : ∀ x ∈ xs, definedMethods (f x) = [x]) : definedMethods (xs.flatMap f) = xs := by
  induction xs with
  | nil => rfl
  | cons x xs ih =>
    rw [List.flatMap_cons, definedMethods_append, h x (by simp), ih fun y hy => h y (by simp [hy])]
    rfl

/-- An identifier is no place for a parenthesis. -/
theorem paren_not_mem {name : String} (h : Usable name) : '(' ∉ name.toList := by
  obtain ⟨c, rest, htext, hc, hrest⟩ := h.identifier
  rw [htext]
  intro hmem
  rcases List.mem_cons.mp hmem with rfl | hmem
  · exact absurd hc (by decide)
  · exact absurd (hrest _ hmem) (by decide)

/-- The class defines the guards and then the actions, each as often as it is listed. -/
theorem definedMethods_methods {m : Machine} (hguards : ∀ g ∈ m.guards, Usable g)
    (hactions : ∀ a ∈ m.actions, Usable a) :
    definedMethods (methods m) = m.guards ++ m.actions := by
  have hguard : definedMethods (m.guards.flatMap guardMethod) = m.guards :=
    definedMethods_flatMap fun g hg => definedMethods_guardMethod (paren_not_mem (hguards g hg))
  have haction : definedMethods (m.actions.flatMap fun a => "" :: actionMethod m a) =
      m.actions := by
    refine definedMethods_flatMap fun a ha => ?_
    have hbody := definedMethods_actionMethod m (paren_not_mem (hactions a ha))
    exact definedMethods_fixed [_] hbody
  have hguardTitle : definedMethods ["", "    # Guards"] = [] := definedMethods_ofList [_, _]
  have hactionTitle : definedMethods ["", "    # Actions"] = [] := definedMethods_ofList [_, _]
  unfold methods
  rw [definedMethods_append]
  congr 1
  · split_ifs with hempty
    · rw [List.isEmpty_iff.mp hempty]
      rfl
    · rw [definedMethods_append, hguardTitle, hguard, List.nil_append]
  · split_ifs with hempty
    · rw [List.isEmpty_iff.mp hempty]
      rfl
    · rw [definedMethods_append, hactionTitle, haction, List.nil_append]

/-- A usable name is none of those that the class defines in any case. -/
theorem not_mem_fixedMethods {name : String} (h : Usable name) : name ∉ fixedMethods := by
  intro hmem
  have hall : ∀ w ∈ fixedMethods, w ∈ modelMembers ∨ w.toList.head? = some '_' := by decide +kernel
  rcases hall name hmem with hmember | hunder
  · exact h.not_member hmember
  · exact h.no_underscore hunder

/-- The class body defines no method twice exactly when no guard is an action as well. -/
theorem nodup_definedMethods_iff {m : Machine} (hguards : ∀ g ∈ m.guards, Usable g)
    (hactions : ∀ a ∈ m.actions, Usable a) (hg : m.guards.Nodup) (ha : m.actions.Nodup) :
    (definedMethods (modelClass m ++ methods m)).Nodup ↔ ∀ g ∈ m.guards, g ∉ m.actions := by
  have hfixed : fixedMethods.Nodup := by decide
  rw [definedMethods_append, definedMethods_modelClass, definedMethods_methods hguards hactions]
  constructor
  · intro h g hguard haction
    have hapart := (List.nodup_append.mp (List.nodup_append.mp h).2.1).2.2
    exact hapart g hguard g haction rfl
  · intro h
    refine List.nodup_append.mpr ⟨hfixed, List.nodup_append.mpr ⟨hg, ha, ?_⟩, ?_⟩
    · rintro g hguard a haction rfl
      exact h g hguard haction
    · rintro x hx name hname rfl
      refine not_mem_fixedMethods ?_ hx
      rcases List.mem_append.mp hname with hguard | haction
      · exact hguards x hguard
      · exact hactions x haction

end Emit

namespace Machine

theorem nodup_definedMethods_derive_iff (d : Diagram) :
    (Emit.definedMethods (Emit.modelClass (derive {} d) ++ Emit.methods (derive {} d))).Nodup ↔
      ∀ g ∈ (derive {} d).guards, g ∉ (derive {} d).actions := by
  refine Emit.nodup_definedMethods_iff ?_ ?_ ?_ ?_
  · exact fun g hg => usable_of_mem_guardsOf hg
  · exact fun a ha => usable_of_mem_actionsOf ha
  · exact nodup_distinct _
  · exact nodup_distinct _

/-- The guards and the actions of a diagram that was read have no name in common, and the class body
defines each of their methods once, exactly when no renamed action gets the name of a guard. -/
theorem methods_apart_iff_of_mem_read {options : ReadOptions} {text : String}
    {name path : Option String} {d : Diagram}
    (h : d ∈ (Source.read options text name path).diagrams) :
    ((∀ g ∈ (derive {} d).guards, g ∉ (derive {} d).actions) ↔ d.RenamesApart) ∧
      ((Emit.definedMethods (Emit.modelClass (derive {} d) ++ Emit.methods (derive {} d))).Nodup ↔
        d.RenamesApart) := by
  obtain ⟨b, id, hb⟩ := Source.exists_block_of_mem_read h
  have hapart := guards_apart_iff (Source.wellFormed_of_readBlock hb)
  exact ⟨hapart, (nodup_definedMethods_derive_iff d).trans hapart⟩

/-- A guard and an action of one name: the action gives way, and both methods are defined once. -/
theorem methods_apart_check :
    ∃ d ∈ (Source.read {} "flowchart TD\nA -->|go guard:check do:check| B" none none).diagrams,
      (derive {} d).guards = ["check"] ∧ "action_check" ∈ (derive {} d).actions ∧ d.RenamesApart ∧
      (Emit.definedMethods (Emit.modelClass (derive {} d) ++
        Emit.methods (derive {} d))).Nodup := by
  have hd :
      ∃ d ∈ (Source.read {} "flowchart TD\nA -->|go guard:check do:check| B" none none).diagrams,
      (derive {} d).guards = ["check"] ∧ "action_check" ∈ (derive {} d).actions ∧
      ∀ g ∈ (derive {} d).guards, g ∉ (derive {} d).actions := by
    decide +kernel
  obtain ⟨d, hmem, hguards, haction, hapart⟩ := hd
  have hiff := methods_apart_iff_of_mem_read hmem
  have hrenames := hiff.1.mp hapart
  exact ⟨d, hmem, hguards, haction, hrenames, hiff.2.mpr hrenames⟩

/-- The action gives way to a name that a second guard has, and the class defines it twice. -/
theorem exists_guard_and_action_of_one_name :
    ∃ d ∈ (Source.read {} ("flowchart TD\nA -->|go guard:check do:check| B\n" ++
      "B -->|back guard:action_check| A") none none).diagrams,
      (∃ name ∈ (derive {} d).guards, name ∈ (derive {} d).actions) ∧
      ¬ (Emit.definedMethods
        (Emit.modelClass (derive {} d) ++ Emit.methods (derive {} d))).Nodup := by
  have hd : ∃ d ∈ (Source.read {} ("flowchart TD\nA -->|go guard:check do:check| B\n" ++
      "B -->|back guard:action_check| A") none none).diagrams,
      ∃ name ∈ (derive {} d).guards, name ∈ (derive {} d).actions := by
    decide +kernel
  obtain ⟨d, hmem, name, hguard, haction⟩ := hd
  refine ⟨d, hmem, ⟨name, hguard, haction⟩, ?_⟩
  rw [nodup_definedMethods_derive_iff]
  exact fun h => h name hguard haction

end Machine

end FlowMachine
