import FlowMachine.Emit.Layout

/-!
# The session service

A module that keeps one machine per session and checks every request before it reaches the machine.
-/
namespace FlowMachine.Emit

/-- The text of the session service; texts longer than `maxInputLength` are refused by it. -/
def sessionService (maxInputLength : String) (m : Machine) : String :=
  document (
  ["\"\"\"",
   doc m.displayName ++ " - session service",
   "",
   "Keeps one machine instance per session and validates every request before",
   "it reaches the machine. Methods return ServiceResult instead of raising.",
   "",
   "USAGE:",
   "    service = " ++ m.className ++ "Service()",
   "    result = service.start_session()",
   "    service.send(result.session_id, 'EVENT_NAME')",
   "\"\"\"",
   "",
   "import logging",
   "import uuid",
   "from dataclasses import asdict, dataclass, field",
   "from enum import Enum",
   "from typing import Any, Dict, List, Optional",
   "",
   "from " ++ m.moduleName ++ " import EVENTS, MACHINE_ID, " ++ m.className ++ "Context, " ++
     m.className ++ "Model, create_machine",
   "",
   "logger = logging.getLogger(__name__)",
   "",
   "MAX_INPUT_LENGTH = " ++ maxInputLength,
   "ACTORS = " ++ tupleOf m.actors,
   "",
   "",
   "class ServiceError(str, Enum):",
   "    UNKNOWN_SESSION = 'unknown_session'",
   "    DUPLICATE_SESSION = 'duplicate_session'",
   "    INVALID_EVENT = 'invalid_event'",
   "    INVALID_INPUT = 'invalid_input'",
   "    SESSION_FINISHED = 'session_finished'",
   "    REJECTED = 'rejected'",
   "",
   "",
   "@dataclass",
   "class ServiceResult:",
   "    success: bool",
   "    session_id: Optional[str] = None",
   "    state: Optional[str] = None",
   "    error: Optional[ServiceError] = None",
   "    message: str = ''",
   "    data: Dict[str, Any] = field(default_factory=dict)",
   "",
   "    def to_dict(self) -> Dict[str, Any]:",
   "        result = asdict(self)",
   "        result['error'] = self.error.value if self.error else None",
   "        return result",
   "",
   "",
   "class " ++ m.className ++ "Service:",
   "    \"\"\"Session manager for the " ++ doc m.displayName ++ " machine\"\"\"",
   "",
   "    def __init__(self, services: Optional[Dict[str, Any]] = None):",
   "        self.services: Dict[str, Any] = dict(services or \x7b\x7d)",
   "        self._sessions: Dict[str, " ++ m.className ++ "Model] = \x7b\x7d",
   "        missing = [actor for actor in ACTORS if actor not in self.services]",
   "        if missing:",
   "            logger.debug(f\"\x7bMACHINE_ID\x7d: no implementation for actors " ++
     "\x7bmissing\x7d\")",
   "",
   "    def start_session(self, session_id: Optional[str] = None, **context_values: Any) -> " ++
     "ServiceResult:",
   "        if session_id is None:",
   "            session_id = uuid.uuid4().hex",
   "        elif not self._valid_session_id(session_id):",
   "            return self._fail(ServiceError.INVALID_INPUT, 'Invalid session id')",
   "        if session_id in self._sessions:",
   "            return self._fail(ServiceError.DUPLICATE_SESSION, f\"Session " ++
     "\x7bsession_id\x7d already exists\",",
   "                              session_id)",
   "",
   "        context = " ++ m.className ++ "Context()",
   "        for name, value in context_values.items():",
   "            if not hasattr(context, name):",
   "                return self._fail(ServiceError.INVALID_INPUT, f\"Unknown context field: " ++
     "\x7bname\x7d\",",
   "                                  session_id)",
   "            problem = self._check_value(name, value)",
   "            if problem:",
   "                return self._fail(ServiceError.INVALID_INPUT, problem, session_id)",
   "            setattr(context, name, value)",
   "",
   "        model = create_machine(model=" ++ m.className ++
     "Model(context, dict(self.services)))",
   "        self._sessions[session_id] = model",
   "        logger.info(f\"\x7bMACHINE_ID\x7d: started session \x7bsession_id\x7d in " ++
     "\x7bmodel.state\x7d\")",
   "        return ServiceResult(True, session_id, model.state, data=model.snapshot())",
   "",
   "    def send(self, session_id: str, event: str, **payload: Any) -> ServiceResult:",
   "        model = self._sessions.get(session_id) if isinstance(session_id, str) else None",
   "        if model is None:",
   "            return self._fail(ServiceError.UNKNOWN_SESSION, f\"Unknown session: " ++
     "\x7bsession_id\x7d\")",
   "        if not isinstance(event, str) or event not in EVENTS:",
   "            return self._fail(ServiceError.INVALID_EVENT, f\"Unknown event: " ++
     "\x7bevent!r\x7d\",",
   "                              session_id, model.state)",
   "        if model.finished:",
   "            return self._fail(ServiceError.SESSION_FINISHED, 'Session already finished',",
   "                              session_id, model.state)",
   "",
   "        allowed = EVENTS[event]['payload']",
   "        for name, value in payload.items():",
   "            if allowed and name not in allowed:",
   "                return self._fail(ServiceError.INVALID_INPUT,",
   "                                  f\"Unexpected payload field for \x7bevent\x7d: " ++
     "\x7bname\x7d\",",
   "                                  session_id, model.state)",
   "            problem = self._check_value(name, value)",
   "            if problem:",
   "                return self._fail(ServiceError.INVALID_INPUT, problem, session_id, " ++
     "model.state)",
   "",
   "        before = model.state",
   "        try:",
   "            moved = model.dispatch(event, **payload)",
   "        except Exception as e:",
   "            logger.error(f\"\x7bMACHINE_ID\x7d: \x7bevent\x7d failed in session " ++
     "\x7bsession_id\x7d: \x7be\x7d\")",
   "            return self._fail(ServiceError.REJECTED, str(e), session_id, model.state)",
   "        if not moved:",
   "            return self._fail(ServiceError.REJECTED, f\"\x7bevent\x7d not allowed in " ++
     "\x7bbefore\x7d\",",
   "                              session_id, model.state)",
   "",
   "        logger.debug(f\"\x7bMACHINE_ID\x7d: session \x7bsession_id\x7d \x7bbefore\x7d " ++
     "--\x7bevent\x7d--> \x7bmodel.state\x7d\")",
   "        return ServiceResult(True, session_id, model.state, data=model.snapshot())",
   "",
   "    def get_session(self, session_id: str) -> Optional[Dict[str, Any]]:",
   "        model = self._sessions.get(session_id)",
   "        return model.snapshot() if model else None",
   "",
   "    def end_session(self, session_id: str) -> ServiceResult:",
   "        model = self._sessions.pop(session_id, None)",
   "        if model is None:",
   "            return self._fail(ServiceError.UNKNOWN_SESSION, f\"Unknown session: " ++
     "\x7bsession_id\x7d\")",
   "        logger.info(f\"\x7bMACHINE_ID\x7d: ended session \x7bsession_id\x7d in " ++
     "\x7bmodel.state\x7d\")",
   "        return ServiceResult(True, session_id, model.state, data=model.snapshot())",
   "",
   "    def active_sessions(self) -> List[str]:",
   "        return sorted(self._sessions)",
   "",
   "    @staticmethod",
   "    def _valid_session_id(session_id: Any) -> bool:",
   "        return isinstance(session_id, str) and 0 < len(session_id) <= 128 and " ++
     "session_id.isprintable()",
   "",
   "    @staticmethod",
   "    def _check_value(name: str, value: Any) -> Optional[str]:",
   "        if isinstance(value, str):",
   "            if len(value) > MAX_INPUT_LENGTH:",
   "                return f\"\x7bname\x7d exceeds \x7bMAX_INPUT_LENGTH\x7d characters\"",
   "            if not value.isprintable():",
   "                return f\"\x7bname\x7d contains control characters\"",
   "        return None",
   "",
   "    def _fail(self, error: ServiceError, message: str, session_id: Optional[str] = None,",
   "              state: Optional[str] = None) -> ServiceResult:",
   "        logger.warning(f\"\x7bMACHINE_ID\x7d: \x7berror.value\x7d: \x7bmessage\x7d\")",
   "        return ServiceResult(False, session_id, state, error, message)"]
  )

end FlowMachine.Emit
