import FlowMachine.Emit.Layout

/-!
# The boundary suite

Tests that hostile payloads and context values never leave a machine outside of its states. Every
value is tried with every payload field of every event, and with every context field.
-/
namespace FlowMachine.Emit

open FlowMachine.Text

/-- A hostile value: the id of its test and the expression for it. -/
structure Boundary where
  id : String
  expression : String

def boundaries : List Boundary :=
  [⟨"none", "None"⟩, ⟨"empty_string", "''"⟩, ⟨"whitespace", "'   '"⟩,
   ⟨"oversized_string", "'x' * 10000"⟩, ⟨"max_length_string", "'y' * 1000"⟩, ⟨"zero", "0"⟩,
   ⟨"negative", "-1"⟩, ⟨"max_int", "sys.maxsize"⟩, ⟨"min_int", "-sys.maxsize - 1"⟩,
   ⟨"infinity", "float('inf')"⟩, ⟨"nan", "float('nan')"⟩, ⟨"boolean", "True"⟩,
   ⟨"markup", "'<script>alert(1)</script>'"⟩,
   ⟨"sql_injection", "\"'; DROP TABLE sessions; --\""⟩,
   ⟨"control_characters", "'\\x00\\x1b[31m\\r\\n'"⟩,
   ⟨"unicode", "'\\u00fcn\\u00efc\\u00f6d\\u00e9 \\U0001f389'"⟩,
   ⟨"nested_mapping", "\x7b'nested': \x7b'deep': [1, 2, 3]\x7d\x7d"⟩, ⟨"empty_list", "[]"⟩]

/-- An event to probe: the state it is sent in and the field that takes the value. -/
structure EventCase where
  event : String
  source : String
  field : String
deriving DecidableEq, Repr

/-- The first state that has a transition with an event. -/
def firstSource? (m : Machine) (event : String) : Option String :=
  (m.states.find? fun s => s.transitions.any (·.event == event)).map (·.name)

/-- The fields of an event that are probed; an event without any is probed with `payload`. -/
def probedFields (e : Event) : List String :=
  if e.payload.isEmpty then ["payload"] else e.payload.map (·.name)

/-- The events to probe, in the order of the catalog. -/
def boundaryCases (m : Machine) : List EventCase :=
  m.events.flatMap fun e =>
    match firstSource? m e.name with
    | some source => (probedFields e).map fun field => ⟨e.name, source, field⟩
    | none => []

def boundaryLine (b : Boundary) : String :=
  "    pytest.param(" ++ b.expression ++ ", id=" ++ literal b.id ++ "),"

def caseLine (c : EventCase) : String :=
  "    (" ++ literal c.event ++ ", " ++ literal c.source ++ ", " ++ literal c.field ++ "),"

/-- The text of the boundary suite. -/
def boundarySuite (m : Machine) : String :=
  document (
  ["\"\"\"",
   "Boundary and error tests for the " ++ doc m.displayName ++ " machine",
   "",
   "Hostile payloads and context values must never raise out of dispatch() and",
   "must leave the machine in one of its declared states.",
   "\"\"\"",
   "",
   "import sys",
   "",
   "import pytest",
   "",
   "from " ++ m.moduleName ++ " import EVENTS, INITIAL_STATE, STATES, create_machine",
   "",
   "STATE_NAMES = [s['name'] for s in STATES]",
   "",
   "BOUNDARY_VALUES = ["]
  ++ boundaries.map boundaryLine ++
  ["]",
   "",
   "# (event, source state, payload field)",
   "EVENT_CASES = ["]
  ++ (boundaryCases m).map caseLine ++
  ["]",
   "",
   "CONTEXT_FIELDS = " ++ listOf m.contextNames,
   "",
   "TERMINAL_STATES = " ++ listOf m.terminals,
   "",
   "UNKNOWN_EVENTS = ['', 'unknown', 'x' * 10000, \"'; DROP TABLE events; --\", '\\x00', " ++
     "'dispatch']",
   "",
   "",
   "class Test" ++ m.className ++ "Payloads:",
   "    \"\"\"Boundary values in every event payload field\"\"\"",
   "",
   "    @pytest.mark.parametrize('value', BOUNDARY_VALUES)",
   "    @pytest.mark.parametrize('event,source,field_name', EVENT_CASES)",
   "    def test_payload_boundary(self, event, source, field_name, value):",
   "        model = create_machine()",
   "        model.machine.set_state(source)",
   "        model.dispatch(event, **\x7bfield_name: value\x7d)",
   "        assert model.state in STATE_NAMES",
   "        assert isinstance(model.snapshot(), dict)",
   "",
   "",
   "class Test" ++ m.className ++ "Context:",
   "    \"\"\"Boundary values in every context field\"\"\"",
   "",
   "    @pytest.mark.parametrize('value', BOUNDARY_VALUES)",
   "    @pytest.mark.parametrize('field_name', CONTEXT_FIELDS)",
   "    def test_context_boundary(self, field_name, value):",
   "        model = create_machine()",
   "        setattr(model.context, field_name, value)",
   "        for event in model.available_events():",
   "            model.dispatch(event)",
   "            assert model.state in STATE_NAMES",
   "",
   "",
   "class Test" ++ m.className ++ "InvalidEvents:",
   "    \"\"\"Events that must be ignored\"\"\"",
   "",
   "    @pytest.mark.parametrize('event', UNKNOWN_EVENTS)",
   "    def test_unknown_event_ignored(self, event):",
   "        model = create_machine()",
   "        assert model.dispatch(event) is False",
   "        assert model.state == INITIAL_STATE",
   "        assert model.history == []",
   "",
   "    @pytest.mark.parametrize('state', TERMINAL_STATES)",
   "    def test_events_ignored_in_terminal_state(self, state):",
   "        model = create_machine()",
   "        model.machine.set_state(state)",
   "        for event in EVENTS:",
   "            assert model.dispatch(event) is False",
   "            assert model.state == state"]
  )

end FlowMachine.Emit
