import FlowMachine.Emit.Layout

/-!
# The smoke suite

Tests that a machine can be built and has the tables its diagram gives. The comprehensive style adds
tests of dispatching from the initial state.
-/
namespace FlowMachine.Emit

open FlowMachine.Text

/-- The check that a context field has its default. -/
def defaultCheck (f : ContextField) : String :=
  "        assert model.context." ++ f.name ++ " " ++
    (if f.default == "None" then "is None" else "== " ++ f.default)

/-- The events that leave the initial state, in order and each once. -/
def initialEvents (m : Machine) : List String :=
  match m.state? m.initial with
  | some s => sortTexts (s.transitions.map (·.event)).eraseDups
  | none => []

/-- Tests of the tables and of building machines. -/
def smokeClass (m : Machine) : List String :=
  ["\"\"\"",
   "Smoke tests for the " ++ doc m.displayName ++ " machine",
   "",
   "Generated by statemachine-codegen from " ++
     (doc (if (sourceName m).isEmpty then m.id else sourceName m)) ++ ".",
   "\"\"\"",
   "",
   "import pytest",
   "",
   "from " ++ m.moduleName ++ " import (",
   "    EVENTS,",
   "    FINAL_STATES,",
   "    INITIAL_STATE,",
   "    MACHINE_ID,",
   "    STATES,",
   "    TRANSITIONS,",
   "    " ++ m.className ++ "Context,",
   "    " ++ m.className ++ "Model,",
   "    create_machine,",
   ")",
   "",
   "",
   "@pytest.fixture",
   "def model():",
   "    return create_machine()",
   "",
   "",
   "class Test" ++ m.className ++ "Smoke:",
   "    \"\"\"Creation and catalog checks\"\"\"",
   "",
   "    def test_machine_id(self):",
   "        assert MACHINE_ID == " ++ literal m.id,
   "",
   "    def test_starts_in_initial_state(self, model):",
   "        assert model.state == INITIAL_STATE == " ++ literal m.initial,
   "",
   "    def test_not_finished_at_start(self, model):",
   "        assert model.finished is (INITIAL_STATE in FINAL_STATES)",
   "",
   "    def test_state_catalog(self):",
   "        assert [s['name'] for s in STATES] == " ++ (listOf (m.states.map State.name)),
   "",
   "    def test_final_states(self):",
   "        assert FINAL_STATES == " ++ tupleOf m.finals,
   "",
   "    def test_transition_count(self):",
   "        assert len(TRANSITIONS) == " ++ toString m.transitionCount,
   "",
   "    def test_event_catalog(self):",
   "        assert sorted(EVENTS) == " ++ (listOf (sortFolded m.eventNames)),
   "",
   "    def test_context_defaults(self, model):",
   "        assert isinstance(model.context, " ++ m.className ++ "Context)"]
  ++ m.context.map defaultCheck ++
  ["",
   "    def test_custom_context_is_kept(self):",
   "        context = " ++ m.className ++ "Context()",
   "        model = create_machine(context=context)",
   "        assert model.context is context",
   "",
   "    def test_custom_model_is_used(self):",
   "        custom = " ++ m.className ++ "Model()",
   "        model = create_machine(model=custom)",
   "        assert model is custom",
   "        assert custom.state == INITIAL_STATE",
   "",
   "    def test_creation_is_deterministic(self):",
   "        assert create_machine().snapshot() == create_machine().snapshot()",
   "",
   "    def test_instances_are_independent(self):",
   "        first = create_machine()",
   "        second = create_machine()",
   "        assert first.context is not second.context",
   "        assert first.history is not second.history"]

/-- Tests of dispatching from the initial state. -/
def dispatchClass (m : Machine) : List String :=
  ["",
   "",
   "class Test" ++ m.className ++ "Dispatch:",
   "    \"\"\"Dispatch behaviour from the initial state\"\"\"",
   "",
   "    def test_available_events_at_start(self, model):",
   "        assert model.available_events() == " ++ (listOf (initialEvents m)),
   "",
   "    def test_unknown_event_is_ignored(self, model):",
   "        assert model.dispatch('__NOT_AN_EVENT__') is False",
   "        assert model.state == INITIAL_STATE",
   "",
   "    def test_snapshot_shape(self, model):",
   "        snapshot = model.snapshot()",
   "        assert snapshot['machine'] == MACHINE_ID",
   "        assert snapshot['state'] == INITIAL_STATE",
   "        assert sorted(snapshot['context']) == " ++ (listOf (sortFolded m.contextNames)),
   "        assert snapshot['history'] == []",
   "",
   "    @pytest.mark.parametrize('event', " ++ (listOf (initialEvents m)) ++ ")",
   "    def test_initial_events_leave_machine_in_known_state(self, model, event):",
   "        model.dispatch(event)",
   "        assert model.state in [s['name'] for s in STATES]"]

/-- The text of the smoke suite. -/
def smokeSuite (comprehensive : Bool) (m : Machine) : String :=
  document (smokeClass m ++ if comprehensive then dispatchClass m else [])

end FlowMachine.Emit
