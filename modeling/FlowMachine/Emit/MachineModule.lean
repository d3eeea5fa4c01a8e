import FlowMachine.Emit.Layout
import FlowMachine.Machine.Derive

/-!
# The machine module

The module that defines a machine: its tables of events, states and transitions, the record of what
it remembers, the model object with its guards and actions, and the function that builds it.
-/
namespace FlowMachine.Emit

open FlowMachine.Text

/-- Import lines of the library that runs the machines start so. -/
def libraryImport : String := "from transitions"

def isLibraryImport (line : String) : Bool := libraryImport.toList.isPrefixOf line.toList

/-- The opening text of the module. -/
def moduleHeader (m : Machine) : List String :=
  ["\"\"\"",
   doc m.displayName ++ " - generated state machine",
   "",
   doc m.description,
   "",
   "Category: " ++ m.category.name,
   "Initial state: " ++ doc m.initial]
  ++ (if m.actors.isEmpty then [] else
    ["Actors: " ++ (", ".intercalate m.actors)]
  ) ++ (if (m.sourcePath.getD "").isEmpty then [] else
    ["Source diagram: " ++ (doc (sourceName m))]
  ) ++
  ["",
   "Generated by statemachine-codegen. Edit the diagram and regenerate instead",
   "of changing this file.",
   "",
   "USAGE:",
   "    model = create_machine()",
   "    model.dispatch('EVENT_NAME')",
   "    print(model.state, model.snapshot())",
   "\"\"\"",
   ""]

/-- The machine checks phone numbers. -/
def validatesPhone (m : Machine) : Bool :=
  m.actions.contains "validate_user_session" && m.contextNames.contains "phone_number"

/-- Import lines and the constants that name the machine. -/
def constants (m : Machine) : List String :=
  m.imports.filter (!isLibraryImport ·) ++ [""] ++ m.imports.filter isLibraryImport ++
  ["",
   "logger = logging.getLogger(__name__)",
   "",
   "MACHINE_ID = " ++ literal m.id,
   "MACHINE_NAME = " ++ literal m.displayName,
   "CATEGORY = " ++ literal m.category.name,
   "INITIAL_STATE = " ++ literal m.initial,
   "FINAL_STATES = " ++ tupleOf m.finals,
   "ACTORS = " ++ tupleOf m.actors]
  ++ (if validatesPhone m then
    ["",
     "_PHONE_PATTERN = re.compile(r'^\\+?[0-9]\x7b7,15\x7d$')"]
  else []) ++ [""]

/-- One payload field in the table of events. -/
def payloadLine (f : PayloadField) : String :=
  "            " ++ literal f.name ++ ": \x7b'kind': " ++ literal f.kind.name ++ ", 'optional': " ++
    truth f.optional ++ "\x7d,"

/-- One entry of the table of events. -/
def eventEntry (e : Event) : List String :=
  ["    " ++ literal e.name ++ ": \x7b",
   "        'payload': \x7b"]
  ++ e.payload.map payloadLine ++
  ["        \x7d,",
   "        'doc': " ++ literal e.doc ++ ",",
   "    \x7d,"]

/-- One entry of the table of states. -/
def stateEntry (s : State) : List String :=
  ["    # " ++ comment s.doc,
   "    \x7b",
   "        'name': " ++ literal s.name ++ ",",
   "        'on_enter': " ++ listOf s.entry ++ ",",
   "        'on_exit': " ++ listOf s.exit ++ ",",
   "    \x7d,"]

/-- One entry of the table of transitions. A guard that is not empty is a condition, and actions,
where there are any, run behind the transition. -/
def transitionEntry (source : String) (t : Transition) : List String :=
  ["    \x7b",
   "        'trigger': " ++ literal t.event ++ ",",
   "        'source': " ++ literal source ++ ",",
   "        'dest': " ++ literalOr t.target ++ ","]
  ++ ((t.guard.filter (!·.isEmpty)).toList.map fun guard =>
    "        'conditions': [" ++ literal guard ++ "],") ++
  (if t.actions.isEmpty then [] else
    ["        'after': " ++ listOf t.actions ++ ","]
  ) ++
  ["    \x7d,"]

/-- The tables of events, states and transitions. -/
def tables (m : Machine) : List String :=
  ["EVENTS: Dict[str, Dict[str, Any]] = \x7b"]
  ++ m.events.flatMap eventEntry ++
  ["\x7d",
   "",
   "STATES: List[Dict[str, Any]] = ["]
  ++ m.states.flatMap stateEntry ++
  ["]",
   "",
   "TRANSITIONS: List[Dict[str, Any]] = ["]
  ++ (m.states.flatMap fun s => s.transitions.flatMap (transitionEntry s.name)) ++
  ["]",
   "",
   ""]

def contextLine (f : ContextField) : String :=
  "    " ++ f.name ++ ": " ++ f.annotation ++ " = " ++ f.default ++
    (if f.doc.isEmpty then "" else "  # " ++ comment f.doc)

/-- The record of what the machine remembers. -/
def contextClass (m : Machine) : List String :=
  ["@dataclass",
   "class " ++ m.className ++ "Context:",
   "    \"\"\"Extended state carried by the " ++ doc m.displayName ++ " machine.\"\"\""]
  ++ m.context.map contextLine ++
  (if m.context.isEmpty then ["    pass"] else []) ++
  ["",
   ""]

/-- The model object up to its guards. -/
def modelClass (m : Machine) : List String :=
  let has (name : String) : Bool := m.contextNames.contains name
  ["class " ++ m.className ++ "Model:",
   "    \"\"\"Model object driven by the " ++ doc m.displayName ++ " machine.",
   "",
   "    Guards allow every transition and actions only log; subclass the model",
   "    and pass an instance to create_machine() to add behaviour.",
   "    \"\"\"",
   "",
   "    def __init__(self, context: Optional[" ++ m.className ++ "Context] = None,",
   "                 services: Optional[Dict[str, Any]] = None):",
   "        self.context = context if context is not None else " ++ m.className ++ "Context()",
   "        self.services: Dict[str, Any] = dict(services or \x7b\x7d)",
   "        self.history: List[str] = []",
   "        self.machine: Optional[HierarchicalMachine] = None",
   "",
   "    @property",
   "    def finished(self) -> bool:",
   "        return getattr(self, 'state', None) in FINAL_STATES",
   "",
   "    def dispatch(self, event_name: str, **payload: Any) -> bool:",
   "        \"\"\"Send an event; unknown events are logged and ignored.\"\"\"",
   "        if self.machine is None or event_name not in self.machine.events:",
   "            logger.warning(f\"\x7bMACHINE_ID\x7d: ignoring unknown event " ++
     "\x7bevent_name!r\x7d \"",
   "                           f\"in state \x7bgetattr(self, 'state', None)\x7d\")",
   "            return False",
   "        return bool(self.trigger(event_name, **payload))",
   "",
   "    def available_events(self) -> List[str]:",
   "        if self.machine is None:",
   "            return []",
   "        return sorted(self.machine.get_triggers(self.state))",
   "",
   "    def snapshot(self) -> Dict[str, Any]:",
   "        return \x7b",
   "            'machine': MACHINE_ID,",
   "            'state': getattr(self, 'state', None),",
   "            'context': asdict(self.context),",
   "            'history': list(self.history),",
   "        \x7d",
   "",
   "    def _record_payload(self, event) -> None:",
   "        payload = event.kwargs"]
  ++ (if has "error" then
    ["        if 'error' in payload:",
     "            self.context.error = None if payload['error'] is None else " ++
       "str(payload['error'])"]
  else []) ++ (if has "user_input" then
    ["        if 'input' in payload:",
     "            self.context.user_input = '' if payload['input'] is None else " ++
       "str(payload['input'])"]
  else []) ++ (if has "current_step" then
    ["        if isinstance(self.context.current_step, int):",
     "            self.context.current_step += 1"]
  else []) ++
  ["        logger.debug(f\"\x7bMACHINE_ID\x7d: \x7bevent.event.name\x7d with " ++
     "\x7bsorted(payload)\x7d\")"]

def guardMethod (guard : String) : List String :=
  ["",
   "    def " ++ guard ++ "(self, event) -> bool:",
   "        \"\"\"Guard stub: allow the transition.\"\"\"",
   "        return True"]

/-- The body of an action: those that come with the category have one of their own, and all others
only log. -/
def actionMethod (m : Machine) (action : String) : List String :=
  let has (name : String) : Bool := m.contextNames.contains name
  if action == "log_state_entry" then
    ["    def log_state_entry(self, event) -> None:",
     "        self.history.append(self.state)",
     "        logger.debug(f\"\x7bMACHINE_ID\x7d entered \x7bself.state\x7d\")"]
  else if action == "cleanup_session" then
    ["    def cleanup_session(self, event) -> None:",
     "        \"\"\"Release session resources when leaving a final state.\"\"\"",
     "        logger.info(f\"\x7bMACHINE_ID\x7d session closed in \x7bself.state\x7d\")"]
  else if action == "validate_user_session" then
    ["    def validate_user_session(self, event) -> None:",
     "        \"\"\"Flag malformed caller phone numbers.\"\"\""]
    ++ (if validatesPhone m then
      ["        phone = self.context.phone_number",
       "        if phone and not _PHONE_PATTERN.match(str(phone)):",
       "            self.context.error = 'Invalid phone number'"]
    else
      ["        logger.debug(f\"\x7bMACHINE_ID\x7d validating user session\")"]
    )
  else if action == "validate_agent_credentials" then
    ["    def validate_agent_credentials(self, event) -> None:",
     "        \"\"\"Agents without an id are never verified.\"\"\""]
    ++ (if has "agent_id" && has "agent_verified" then
      ["        self.context.agent_verified = bool(self.context.agent_id)"]
    else
      ["        logger.debug(f\"\x7bMACHINE_ID\x7d validating agent credentials\")"]
    )
  else
    ["    def " ++ action ++ "(self, event) -> None:",
     "        logger.debug(f\"\x7bMACHINE_ID\x7d action " ++ action ++ " in \x7bself.state\x7d\")"]

/-- The methods of guards and actions. -/
def methods (m : Machine) : List String :=
  (if m.guards.isEmpty then [] else ["", "    # Guards"] ++ m.guards.flatMap guardMethod) ++
  (if m.actions.isEmpty then []
  else ["", "    # Actions"] ++ m.actions.flatMap fun action => "" :: actionMethod m action)

/-- The function that builds the machine. -/
def builder (m : Machine) : List String :=
  ["",
   "",
   "class _DottedState(NestedState):",
   "    separator = '.'",
   "",
   "",
   "class _" ++ m.className ++ "(HierarchicalMachine):",
   "    state_cls = _DottedState",
   "",
   "",
   "def create_machine(context: Optional[" ++ m.className ++ "Context] = None,",
   "                   model: Optional[" ++ m.className ++ "Model] = None) -> " ++ m.className ++
     "Model:",
   "    \"\"\"Build a machine positioned at INITIAL_STATE and return its model.\"\"\"",
   "    if model is None:",
   "        model = " ++ m.className ++ "Model(context)",
   "    machine = _" ++ m.className ++ "(",
   "        model=model,",
   "        states=copy.deepcopy(STATES),",
   "        transitions=copy.deepcopy(TRANSITIONS),",
   "        initial=INITIAL_STATE,",
   "        send_event=True,",
   "        auto_transitions=False,",
   "        ignore_invalid_triggers=True,",
   "        before_state_change='_record_payload',",
   "    )",
   "    model.machine = machine",
   "    return model"]

/-- The text of the machine module. -/
def machineModule (m : Machine) : String :=
  document (moduleHeader m ++ constants m ++ tables m ++ contextClass m ++ modelClass m ++
    methods m ++
    builder m)

end FlowMachine.Emit
