import FlowMachine.Proofs.Module.Templates
import FlowMachine.Proofs.Identifier
import FlowMachine.Emit.Layout
import FlowMachine.Machine.Derive

/-!
# Printable machines

The texts of a machine have their places in its documents: names stand where names are read, and
texts that stand in docstrings and comments have no null characters.
-/
namespace FlowMachine.Emit

open FlowMachine.Module FlowMachine.Identifier Scan

/-- Types and defaults of the fields that machines have. -/
def fieldForms : List (String × String) :=
  [("str", "\"\""), ("bool", "False"), ("int", "1"), ("int", "0"), ("Optional[str]", "None")]

/-- The texts of the machine have their places in its documents. -/
structure Printable (m : Machine) : Prop where
  id : NulFree m.id
  displayName : NulFree m.displayName
  description : NulFree m.description
  initial : NulFree m.initial
  source : NulFree (sourceName m)
  moduleName : Composed m.moduleName [.word]
  className : Composed m.className [.word]
  actors : Composed (", ".intercalate m.actors) [.tame]
  imports : ∃ c : Category, m.imports = c.imports
  names : ∀ f ∈ m.context, Composed f.name [.word]
  fields : ∀ f ∈ m.context, (f.annotation, f.default) ∈ fieldForms ∧ f.doc ≠ "" ∧ NulFree f.doc
  methods : ∀ name ∈ m.guards ++ m.actions, Usable name
  payload : ∀ e ∈ m.events, ∃ kind : Label.Kind, e.payload = kind.payload
  states : ∀ s ∈ m.states, NulFree s.name ∧ NulFree s.doc
  events : ∀ s ∈ m.states, ∀ t ∈ s.transitions, NulFree t.event
  targets : ∀ s ∈ m.states, ∀ t ∈ s.transitions, ∀ target ∈ t.target, ∀ c ∈ target.toList,
    isTame c = true

/-- Behind statements of the module. -/
def atTop : Scan := { slots := [.plain] }

/-- Behind statements of a class. -/
def inClass : Scan := { indents := [4, 0], slots := [.plain, .plain] }

/-- Behind statements of a method. -/
def inMethod : Scan := { indents := [8, 4, 0], slots := [.plain, .plain, .plain] }

/-- The text is read as a module, and has no null character. -/
structure IsModule (s : String) : Prop where
  reads : ∃ o, Module.read s.toList = .ok o
  clear : NulFree s

theorem isModule_of_passes {lines : List String} {S : Scan} (h : Passes {} S lines)
    (hend : S.isEnd = true) :
    IsModule (document lines) := by
  have hadmits : ({} : Scan).Admits (document lines).toList := by simpa using h [] (admits_nil hend)
  exact ⟨exists_read_of_admits hadmits, hadmits.2⟩

end FlowMachine.Emit
