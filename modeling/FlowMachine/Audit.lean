import FlowMachine.Audit.Spec
import FlowMachine.Check
import FlowMachine.Number.Total
import FlowMachine.Reachability

/-!
# Auditing machines

The rules that machines have to keep: metadata, structure, final states and dead ends, targets,
reachability, what each category is expected to have, naming, and what a batch of machines has to
have together. What breaks a machine is an error, and all advice is a warning.
-/
namespace FlowMachine.Audit

/-- A text, or the word for a missing one. -/
def shown : Option String → String
  | some s => s
  | none => "None"

def missing : Option String → Bool
  | some s => s.isEmpty
  | none => true

def error (message category : String) (suggestion : Option String) : Finding :=
  .error message category none suggestion

def warning (message category : String) (suggestion : Option String) : Finding :=
  .warning message category none suggestion

def isBlankText (s : String) : Bool := (Text.trim s.toList).isEmpty

def metadataFindings (o : CheckOptions) (spec : Spec) : List Finding :=
  let id := shown spec.id
  (if spec.id.all isBlankText then [error "Missing machine ID" "missing_metadata" none] else []) ++
  (if isBlankText spec.name then [error s!"Machine '{id}' has no name" "missing_metadata" none]
  else []) ++
  (if missing spec.category then [error s!"Machine '{id}' has no category" "missing_metadata" none]
  else if !o.allowed.admits (shown spec.category) then
    [error s!"Category '{shown spec.category}' of machine '{id}' is not allowed" "invalid_category"
      (some s!"Valid categories: {o.allowed.listed}")]
  else [])

/-- A name is the name of a state. -/
def hasState (spec : Spec) (name : Option String) : Bool :=
  spec.states.any fun s => some s.name == name

def outlineFindings (o : CheckOptions) (spec : Spec) : List Finding :=
  let id := shown spec.id
  let initial := shown spec.initial
  let count := spec.states.length
  (if (count : Int) > o.maxStates.bound then
    [warning s!"Machine '{id}' has {count} states (recommended limit {o.maxStates.text})"
      "too_many_states" (some "Split the flow into several machines")]
  else []) ++
  (if missing spec.initial then
    [error s!"Machine '{id}' has no initial state" "missing_initial_state" none]
  else if !hasState spec spec.initial then
    [error s!"Initial state '{initial}' is not defined in '{id}'" "invalid_initial_state"
      (some s!"Add '{initial}' or change the initial state")]
  else [])

/-- Checks one state, where `before` are the states in front of it. -/
def stateFindings (o : CheckOptions) (id : String) (before : List State) (s : State) :
    List Finding :=
  let count := s.transitions.length
  (if before.any (·.name == s.name) then
    [error s!"State '{s.name}' is defined multiple times in '{id}'" "duplicate_state" none]
  else []) ++
  (if (count : Int) > o.maxTransitions.bound then
    [warning (s!"State '{s.name}' has {count} transitions " ++
      s!"(recommended limit {o.maxTransitions.text})") "too_many_transitions" none]
  else []) ++
  (if s.isFinal then
    if s.transitions.isEmpty then []
    else
      [error s!"Final state '{s.name}' should not have outgoing transitions"
        "final_state_transitions" (some s!"Remove the transitions or make '{s.name}' non-final")]
  else if s.transitions.isEmpty then
    [warning s!"State '{s.name}' has no outgoing transitions and is not marked as final"
      "dead_end_state" (some s!"Add a transition from '{s.name}' or mark it final (circle shape)")]
  else [])

def stateFindingsFrom (o : CheckOptions) (id : String) (before : List State) :
    List State → List Finding
  | [] => []
  | s :: rest => stateFindings o id before s ++ stateFindingsFrom o id (before ++ [s]) rest

/-- More final states than this are reported. -/
def finalStateLimit : Nat := 5

def allStateFindings (o : CheckOptions) (spec : Spec) : List Finding :=
  let id := shown spec.id
  let finals := spec.states.countP (·.isFinal)
  stateFindingsFrom o id [] spec.states ++
  (if spec.category == some "user" && finals == 0 then
    [warning s!"User machine '{id}' has no final state" "no_final_state"
      (some "Add a final state for session completion")]
  else []) ++
  (if finals > finalStateLimit then
    [warning s!"Machine '{id}' has {finals} final states" "many_final_states"
      (some "Many final states may indicate complex termination logic")]
  else [])

def targetFindings (spec : Spec) : List Finding :=
  spec.states.flatMap fun s => s.transitions.flatMap fun t =>
    if !missing t.target && !hasState spec t.target then
      [error s!"Transition from '{s.name}' targets non-existent state '{shown t.target}'"
        "invalid_transition_target" none]
    else []

/-- The targets that all states of a name lead to together. -/
def successors (states : List State) (name : String) : List String :=
  (states.filter (·.name == name)).flatMap fun s => s.transitions.filterMap fun t =>
    t.target.filter fun target => !target.isEmpty

def transitionCount (states : List State) : Nat := total (states.map (·.transitions.length))

def unreachableFindings (spec : Spec) : List Finding :=
  match spec.initial with
  | none => []
  | some initial =>
    if !hasState spec (some initial) then []
    else
      let found := reachable (successors spec.states) (transitionCount spec.states) initial
      (spec.states.filter fun s => !found.contains s.name).map fun s =>
        warning s!"State '{s.name}' cannot be reached from initial state '{initial}'"
          "unreachable_state" (some s!"Add a transition path from '{initial}' to '{s.name}'")

/-- Some state is expected to have one of the keywords in its name. -/
structure Expectation where
  category : String
  keywords : List String
  message : String
  suggestion : String

def expectations : List Expectation :=
  [⟨"user", ["auth", "login", "session"], "User machine has no authentication or session state",
    "Add a state such as 'Login' or 'SessionCheck'"⟩,
   ⟨"user", ["menu", "main"], "User machine has no menu or main navigation state",
    "Add a state such as 'MainMenu'"⟩,
   ⟨"agent", ["permission", "authorize"], "Agent machine has no permission check state",
    "Add a state such as 'CheckPermission'"⟩,
   ⟨"account", ["balance", "account", "validate"],
    "Account machine has no balance or account validation state",
    "Add a state such as 'ValidateAccount'"⟩,
   ⟨"core", ["route", "dispatch", "select"], "Core machine has no routing or dispatch state",
    "Add a state such as 'RouteRequest'"⟩]

/-- The keyword occurs in the text, whatever its case. -/
def mentions (text keyword : String) : Bool := Text.within keyword (Text.lower text)

def handlesErrors (s : State) : Bool :=
  s.transitions.any fun t =>
    mentions t.event "error" || t.target.any fun target => mentions target "error"

def leadsBack (s : State) : Bool :=
  s.transitions.any fun t => mentions t.event "back" || mentions t.event "cancel"

def userStateFindings (o : CheckOptions) (spec : Spec) (s : State) : List Finding :=
  (if mentions s.name "input" && !handlesErrors s then
    [warning s!"Input state '{s.name}' has no error handling transition" "missing_error_handling"
      none]
  else []) ++
  (if o.navigation && !s.isFinal && some s.name != spec.initial && !leadsBack s then
    [warning s!"User state '{s.name}' has no back/cancel navigation" "missing_navigation" none]
  else [])

/-- An information machine with more states than this is reported. -/
def infoStateLimit : Nat := 10

def categoryFindings (o : CheckOptions) (spec : Spec) : List Finding :=
  let id := shown spec.id
  let count := spec.states.length
  ((expectations.filter fun e => some e.category == spec.category).flatMap fun e =>
    if spec.states.any fun s => e.keywords.any (mentions s.name ·) then []
    else [warning s!"{e.message} ('{id}')" "category_rule" (some e.suggestion)]) ++
  (if spec.category == some "info" && count > infoStateLimit then
    [warning s!"Information machine '{id}' has {count} states" "category_rule"
      (some "Information machines should stay small")]
  else []) ++
  (if spec.category == some "user" then spec.states.flatMap (userStateFindings o spec) else [])

def namingFindings (o : CheckOptions) (spec : Spec) : List Finding :=
  if !o.naming then []
  else
    spec.states.flatMap fun s =>
      (if Check.isPascalCase s.name then []
      else [warning s!"State name '{s.name}' should follow PascalCase convention" "naming" none]) ++
      s.transitions.flatMap fun t =>
        if Check.isUpperSnake t.event then []
        else [warning s!"Event '{t.event}' should follow UPPER_SNAKE_CASE convention" "naming" none]

/-- All findings about one machine, in order. -/
def machineFindings (o : CheckOptions) (spec : Spec) : List Finding :=
  metadataFindings o spec ++
  if spec.states.isEmpty then
    [error s!"Machine '{shown spec.id}' has no states" "no_states" (some "Add at least one state")]
  else
    outlineFindings o spec ++ allStateFindings o spec ++ targetFindings spec ++
      unreachableFindings spec ++
      categoryFindings o spec ++ namingFindings o spec

/-- Machines whose name another machine in front of them has. -/
def repeatedNames (before : List String) : List Spec → List Finding
  | [] => []
  | spec :: rest =>
    (if before.contains spec.name then
      [error s!"Machine name '{spec.name}' is used by multiple machines" "duplicate_machine" none]
    else []) ++ repeatedNames (before ++ [spec.name]) rest

/-- What machines have to have together. -/
def togetherFindings (specs : List Spec) : List Finding :=
  repeatedNames [] specs ++
  (if specs.any (·.category == some "user") then []
  else [warning "No user-facing machine in this batch" "missing_user_machine" none]) ++
  (if specs.any (·.category == some "core") then []
  else [warning "No core routing machine in this batch" "missing_core_machine" none])

/-- All findings about a batch of machines, in order. -/
def batchFindings (o : CheckOptions) (specs : List Spec) : List Finding :=
  if specs.isEmpty then [warning "No machines to validate" "no_machines" none]
  else specs.flatMap (machineFindings o) ++ togetherFindings specs

/-- Audits a batch of machines. -/
def check (o : CheckOptions) (specs : List Spec) (source : String) : Report :=
  .ofFindings source (batchFindings o specs)

/-- Audits one machine on its own. -/
def checkMachine (o : CheckOptions) (spec : Spec) : Report :=
  .ofFindings (if spec.source.isEmpty then shown spec.id else spec.source) (machineFindings o spec)

/-- The categories that are looked up among the allowed ones. -/
def givenCategories (specs : List Spec) : List String :=
  (specs.filterMap (·.category)).filter (!·.isEmpty)

/-- Runs an audit under settings, whose allowed categories may be unusable. -/
def underSettings (s : RuleSettings) (specs : List Spec) (run : CheckOptions → Report) :
    Except Fault Report :=
  match s.allowedFault? (givenCategories specs) with
  | some fault => .error fault
  | none => .ok (run s.toOptions)

end FlowMachine.Audit
