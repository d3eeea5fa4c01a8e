import FlowMachine.Emit.Layout
import FlowMachine.Identifier
import FlowMachine.Reachability

/-!
# The transition suite

One test per transition of a machine: the machine is put into the source state, the event is sent
with a sample payload, and the state behind it is checked. Where an earlier transition of the same
state has the same event, any target of that event is accepted.
-/
namespace FlowMachine.Emit

open FlowMachine.Text

/-- The sample value of a payload field, as a literal. -/
def sampleValue (f : PayloadField) : String :=
  match f.kind with
  | .text => literal ("sample " ++ f.name)
  | .number => "1"
  | .bool => "True"
  | .anything => "\x7b'value': " ++ literal f.name ++ "\x7d"

/-- Sets the sample of a field; a field that occurs again keeps its place. -/
def setSample (samples : List (String × String)) (f : PayloadField) : List (String × String) :=
  if samples.any (·.1 == f.name) then
    samples.map fun s => if s.1 == f.name then (f.name, sampleValue f) else s
  else samples ++ [(f.name, sampleValue f)]

/-- Sample values for the payload of an event. -/
def sampleFields (m : Machine) (event : String) : List (String × String) :=
  match m.events.find? (·.name == event) with
  | some e => e.payload.foldl setSample []
  | none => []

/-- One test of the suite. -/
structure Scenario where
  name : String
  source : String
  event : String
  target : Option String
  /-- All targets of the event in the source state, each once. -/
  targets : List (Option String)
  payload : List (String × String)
  /-- No transition in front of this one has the same source and event. -/
  first : Bool
  final : Bool
deriving DecidableEq, Repr

/-- A number with at least three digits. -/
def threeDigits (n : Nat) : String :=
  let digits := (toString n).toList
  String.ofList (List.replicate (3 - digits.length) '0' ++ digits)

/-- The name of the test with a number. -/
def scenarioName (n : Nat) (source event : String) : String :=
  let name := s!"test_{threeDigits n}_{Identifier.snake source}_{Identifier.snake event}"
  String.ofList (replaceAll ['_', '_'] ['_'] name.toList)

/-- The transitions of a machine with their source states, in order. -/
def table (m : Machine) : List (State × Transition) :=
  m.states.flatMap fun s => s.transitions.map fun t => (s, t)

/-- The scenarios of transitions, where `seen` are the sources and events in front of them. -/
def scenariosFrom (m : Machine) (n : Nat) (seen : List (String × String)) :
    List (State × Transition) → List Scenario
  | [] => []
  | (s, t) :: rest =>
    { name := scenarioName n s.name t.event
      source := s.name
      event := t.event
      target := t.target
      targets := ((s.transitions.filter (·.event == t.event)).map (·.target)).eraseDups
      payload := sampleFields m t.event
      first := !seen.contains (s.name, t.event)
      final := t.target.any m.finals.contains } ::
    scenariosFrom m (n + 1) (seen ++ [(s.name, t.event)]) rest

/-- One scenario per transition, in order. -/
def scenarios (m : Machine) : List Scenario := scenariosFrom m 1 [] (table m)

/-- The targets of the first state with a name. -/
def successors (m : Machine) (name : String) : List String :=
  match m.state? name with
  | some s => s.transitions.filterMap (·.target)
  | none => []

/-- States that no path from the initial state leads to. -/
def strandedStates (m : Machine) : List String :=
  let found := reachable (successors m) m.transitionCount m.initial
  (m.states.map (·.name)).filter (!found.contains ·)

def scenarioLines (s : Scenario) : List String :=
  let arguments := String.join (s.payload.map fun p => ", " ++ p.1 ++ "=" ++ p.2)
  ["",
   "    def " ++ s.name ++ "(self):",
   "        \"\"\"" ++ doc s.source ++ " --" ++ doc s.event ++ "--> " ++
     (doc (s.target.getD "")) ++ "\"\"\"",
   "        model = machine_in(" ++ literal s.source ++ ")",
   "        assert model.dispatch(" ++ literal s.event ++ arguments ++ ") is True"]
  ++ (if s.first then
    ["        assert model.state == " ++ literalOr s.target,
     "        assert model.history[-1] == " ++ literalOr s.target]
    ++ (if s.final then ["        assert model.finished"] else [])
  else
    ["        # an earlier edge with the same event takes precedence",
     "        assert model.state in " ++ (literalTuple (s.targets.map literalOr))]
  )

/-- The text of the transition suite. -/
def transitionSuite (m : Machine) : String :=
  document (
  ["\"\"\"",
   "Transition coverage tests for the " ++ doc m.displayName ++ " machine",
   "",
   "One test per transition table entry. Each test places the machine in the",
   "source state, dispatches the event with a sample payload and checks the",
   "resulting state.",
   "\"\"\"",
   "",
   "from collections import deque",
   "",
   "import pytest",
   "",
   "from " ++ m.moduleName ++
     " import FINAL_STATES, INITIAL_STATE, STATES, TRANSITIONS, create_machine",
   "",
   "",
   "def machine_in(state):",
   "    model = create_machine()",
   "    model.machine.set_state(state)",
   "    return model",
   "",
   "",
   "class Test" ++ m.className ++ "Transitions:",
   "    \"\"\"Every edge of the diagram\"\"\""]
  ++ (scenarios m).flatMap scenarioLines ++
  (if (scenarios m).isEmpty then
    ["",
     "    def test_no_transitions(self):",
     "        assert TRANSITIONS == []"]
  else []) ++
  ["",
   "",
   "class Test" ++ m.className ++ "Structure:",
   "    \"\"\"Whole-graph properties\"\"\"",
   "",
   "    def test_every_state_reachable_from_initial(self):",
   "        edges = \x7b\x7d",
   "        for t in TRANSITIONS:",
   "            edges.setdefault(t['source'], []).append(t['dest'])",
   "        seen = \x7bINITIAL_STATE\x7d",
   "        queue = deque([INITIAL_STATE])",
   "        while queue:",
   "            for target in edges.get(queue.popleft(), []):",
   "                if target not in seen:",
   "                    seen.add(target)",
   "                    queue.append(target)",
   "        unreachable = [s['name'] for s in STATES if s['name'] not in seen]",
   "        assert unreachable == " ++ (listOf (strandedStates m)),
   "",
   "    @pytest.mark.parametrize('state', " ++ listOf m.terminals ++ ")",
   "    def test_terminal_state_has_no_triggers(self, state):",
   "        model = machine_in(state)",
   "        assert model.available_events() == []",
   "",
   "    @pytest.mark.parametrize('state', FINAL_STATES)",
   "    def test_final_state_reports_finished(self, state):",
   "        model = machine_in(state)",
   "        assert model.finished"]
  )

end FlowMachine.Emit
