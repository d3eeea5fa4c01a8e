import FlowMachine.Module.Reader

/-!
# Expressions of a written module

Expressions are read for their form only: whether one is well formed, and whether it can stand on
the left of an assignment. Operators of one rank are read together, since their order does not
change the form.
-/
namespace FlowMachine.Module

/-- The form of an expression, with the line where it starts. -/
inductive Expr where
  | name (word : String) (line : Nat)
  /-- A part of an object: an attribute or a subscript. -/
  | part (kind : String) (line : Nat)
  | starred (inner : Expr) (line : Nat)
  | tuple (items : List Expr) (line : Nat)
  | list (items : List Expr) (line : Nat)
  /-- Any other expression; a tight one can be an operand of arithmetic. -/
  | other (kind : String) (tight : Bool) (line : Nat)
  /-- A comparison that asks first whether its left side is in something. -/
  | within (left : Expr) (line : Nat)
deriving Repr

namespace Expr

def line : Expr → Nat
  | .name _ line => line
  | .part _ line => line
  | .starred _ line => line
  | .tuple _ line => line
  | .list _ line => line
  | .other _ _ line => line
  | .within _ line => line

/-- The name of the kind of an expression. -/
def kind : Expr → String
  | .name _ _ => "name"
  | .part kind _ => kind
  | .starred _ _ => "starred"
  | .tuple _ _ => "tuple"
  | .list _ _ => "list"
  | .other kind _ _ => kind
  | .within _ _ => "comparison"

/-- The expression between parentheses of its own. -/
def grouped : Expr → Expr
  | .other kind _ line => .other kind true line
  | .within _ line => .other "comparison" true line
  | e => e

/-- The constants that are written as names. -/
def constants : List String := ["True", "False", "None"]

def generator : String := "generator expression"

/-- An expression that an equals sign can follow by mistake for a comparison. -/
def isComparable : Expr → Bool
  | .name _ _ => true
  | .part _ _ => true
  | .other kind tight _ => tight && kind != generator && !constants.contains kind
  | _ => false

/-- A target that stands alone: a name or a part of an object. -/
def isSingle : Expr → Bool
  | .name _ _ => true
  | .part _ _ => true
  | _ => false

/-- What targets are for. -/
inductive Use where
  | assigning
  | looping
  | deleting
deriving DecidableEq, Repr

mutual

/-- The first piece of an expression that is no target. Of a loop the left side of `in` counts. -/
def invalid? (use : Use) : Expr → Option Expr
  | .name _ _ => none
  | .part _ _ => none
  | .starred inner line =>
    if use == .deleting then some (.starred inner line) else invalid? use inner
  | .tuple items _ => invalidItem? use items
  | .list items _ => invalidItem? use items
  | .other kind tight line =>
    if use == .looping && kind == "comparison" && !tight then none
      else some (.other kind tight line)
  | .within left line => if use == .looping then invalid? use left else some (.within left line)

def invalidItem? (use : Use) : List Expr → Option Expr
  | [] => none
  | item :: rest =>
    match invalid? use item with
    | some e => some e
    | none => invalidItem? use rest

end

end Expr

/-- What parameters were read so far. -/
structure Parameters where
  count : Nat := 0
  defaulted : Bool := false
  slash : Bool := false
  star : Bool := false
  unpacked : Bool := false

/-- What arguments were read so far, with the line of the first. -/
structure Arguments where
  line : Nat
  first : Bool := true
  keyword : Bool := false
  unpacked : Bool := false

def unaryOperators : List String := ["-", "+", "~"]

def binaryOperators : List String :=
  ["+", "-", "*", "/", "//", "%", "@", "**", "<<", ">>", "&", "|", "^"]

def comparisons : List String := ["<", ">", "<=", ">=", "==", "!="]

/-- Takes a comparison, if there is one: whether it is the one by `in`. -/
def acceptComparison : Reader (Option Bool) := do
  if ← acceptAny comparisons then return some false
  if ← accept "in" then return some true
  if ← accept "is" then
    let _ ← accept "not"
    return some false
  match ← get with
  | ⟨.name "not", _, _⟩ :: ⟨.name "in", _, _⟩ :: rest =>
    set rest
    return some false
  | _ => return none

/-- The clauses of a comprehension start at the front. -/
def startsClause (ts : List Token) : Bool := frontIs "for" ts || frontIs "async" ts

/-- A name with a mark behind it stands at the front. -/
def frontPair (mark : String) (ts : List Token) : Bool :=
  (frontName? ts).isSome && frontIs mark ts.tail

/-- Strings that stand side by side: all of them hold bytes, or none does. -/
def takeStrings : Reader Expr := do
  let ts ← get
  let isString (t : Token) : Bool := match t.lexeme with
    | .string _ _ => true
    | _ => false
  let strings := ts.takeWhile isString
  set (ts.dropWhile isString)
  let kinds := strings.map fun t => match t.lexeme with
    | .string ofBytes formatted => (ofBytes, formatted)
    | _ => (false, false)
  if (kinds.any (·.1)) && !(kinds.all (·.1)) then remark .stringsMixed
  let kind := if kinds.any (·.2) then "f-string expression" else "literal"
  return .other kind true (lineOf ts)

/-- The token in front of what is left was inside of brackets. -/
def endsInside (before rest : List Token) : Bool :=
  (before[before.length - rest.length - 1]?).any (·.level != 0)

/-- The name of an old statement that is a function now. -/
def Expr.oldStatement? : Expr → Option String
  | .name word _ => if word == "print" || word == "exec" then some word else none
  | _ => none

/-- Names that are keywords in some places. -/
def softKeywords : List String := ["match", "case", "_"]

/-- A name with a string behind it, or a name that may be on the way to a keyword, which are not
taken for a missing comma. -/
def startsOddly (ts : List Token) : Bool :=
  match ts with
  | ⟨.name word, _, _⟩ :: ⟨.string _ _, _, _⟩ :: _ => !keywords.contains word
  | ⟨.name word, _, _⟩ :: _ => softKeywords.any fun other => word.toList.isPrefixOf other.toList
  | _ => false

mutual

/-- Reads one expression. -/
def expression : Nat → Reader Expr
  | 0 => misplaced
  | fuel + 1 => do
    let start ← get
    if ← accept "lambda" then
      parameters fuel false ":" {}
      take ":"
      let _ ← expression fuel
      return .other "lambda" false (lineOf start)
    let e ← disjunction fuel
    neighbour fuel start e
    conditional fuel e

/-- Reads the condition and the other value behind the first value of a conditional expression, if
they follow. -/
def conditional : Nat → Expr → Reader Expr
  | 0, _ => misplaced
  | fuel + 1, e => do
    let start ← get
    unless ← accept "if" do return e
    let _ ← disjunction fuel
    if ← accept "else" then
      let _ ← expression fuel
      return .other "conditional expression" false e.line
    if (← sees ":") || frontBad (← get) then misplaced
    if ← read then remarkOn e.line .missingElse
    set start
    return e

/-- Looks for an expression directly behind another one, which started at `start`: inside of
brackets a comma is missing between them. -/
def neighbour : Nat → List Token → Expr → Reader Unit
  | 0, _, _ => return
  | fuel + 1, start, e => do
    let ts ← get
    unless (← read) && startsExpression ts do return
    let old? := e.oldStatement?
    let odd := old?.isSome || startsOddly start
    unless odd && ts.length + 1 != start.length do
      match ← attempt (if odd then starExpressions fuel else quietly (expression fuel)) with
      | .ok (_, rest) =>
        if frontBad rest then throw (.misplaced rest rest)
        set rest
        match old? with
        | some word => remarkOn e.line (.statementCall word)
        | none => if !odd && endsInside ts rest then remarkOn e.line .missingComma
        set ts
      | .error seen => throw (.misplaced ts seen)

/-- Reads operands with `and` and `or` between them. -/
def disjunction : Nat → Reader Expr
  | 0 => misplaced
  | fuel + 1 => do
    let e ← inversion fuel
    if ← acceptAny ["and", "or"] then
      let _ ← disjunction fuel
      return .other "expression" false e.line
    return e

def inversion : Nat → Reader Expr
  | 0 => misplaced
  | fuel + 1 => do
    let line ← frontLine
    if ← accept "not" then
      let _ ← inversion fuel
      return .other "expression" false line
    comparison fuel

def comparison : Nat → Reader Expr
  | 0 => misplaced
  | fuel + 1 => do
    let e ← arithmetic fuel
    match ← acceptComparison with
    | none => return e
    | some byIn =>
      let _ ← comparison fuel
      return if byIn then .within e e.line else .other "comparison" false e.line

/-- Reads operands of arithmetic with their operators. -/
def arithmetic : Nat → Reader Expr
  | 0 => misplaced
  | fuel + 1 => do
    let e ← factor fuel
    if ← acceptAny binaryOperators then
      let _ ← arithmetic fuel
      return .other "expression" true e.line
    return e

def factor : Nat → Reader Expr
  | 0 => misplaced
  | fuel + 1 => do
    let line ← frontLine
    if ← acceptAny unaryOperators then
      let _ ← factor fuel
      return .other "expression" true line
    if ← accept "await" then
      let _ ← primary fuel
      return .other "await expression" true line
    primary fuel

/-- Reads an atom with calls, subscripts and attributes behind it. -/
def primary : Nat → Reader Expr
  | 0 => misplaced
  | fuel + 1 => do trailers fuel (← atom fuel)

def atom : Nat → Reader Expr
  | 0 => misplaced
  | fuel + 1 => do
    match ← get with
    | ⟨.number, line, _⟩ :: rest =>
      set rest
      return .other "literal" true line
    | ⟨.string _ _, _, _⟩ :: _ => takeStrings
    | ⟨.mark text, line, _⟩ :: rest =>
      if text == "..." then
        set rest
        return .other "ellipsis" true line
      if text == "(" then
        set rest
        group fuel line
      else if text == "[" then
        set rest
        listDisplay fuel line
      else if text == "\x7b" then
        set rest
        braces fuel line
      else misplaced
    | ⟨.name word, line, _⟩ :: rest =>
      if Expr.constants.contains word then
        set rest
        return .other word true line
      if keywords.contains word then misplaced
      set rest
      return .name word line
    | _ => misplaced

def trailers : Nat → Expr → Reader Expr
  | 0, _ => misplaced
  | fuel + 1, e => do
    if ← accept "(" then
      arguments fuel true { line := ← frontLine }
      trailers fuel (.other "function call" true e.line)
    else if ← accept "[" then
      slices fuel
      trailers fuel (.part "subscript" e.line)
    else if ← accept "." then
      let _ ← takeName
      trailers fuel (.part "attribute" e.line)
    else return e

/-- Reads what stands between parentheses, behind the opening one. -/
def group : Nat → Nat → Reader Expr
  | 0, _ => misplaced
  | fuel + 1, line => do
    if ← accept ")" then return .tuple [] line
    if ← sees "yield" then
      let e ← yieldExpression fuel
      take ")"
      return e.grouped
    if ← sees "**" then
      let closed ← succeeds do
        skip
        let _ ← expression fuel
        take ")"
      if closed then remark (.starredGroup true)
      misplaced
    let e ← starNamed fuel
    if ← accept "," then return .tuple (e :: (← elements fuel ")" none)) line
    if startsClause (← get) then
      comprehension fuel e
      take ")"
      return .other Expr.generator true line
    take ")"
    match e with
    | .starred _ line => remarkOn line (.starredGroup false)
    | e => return e.grouped

/-- Reads elements up to a closing bracket. Clauses behind one of them, `first` the first, are a
comprehension whose target has no parentheses. -/
def elements : Nat → String → Option Nat → Reader (List Expr)
  | 0, _, _ => misplaced
  | fuel + 1, closer, first => do
    if ← accept closer then return []
    if startsClause (← get) then lostTarget fuel first
    let e ← starNamed fuel
    if ← accept "," then return e :: (← elements fuel closer first)
    if startsClause (← get) then lostTarget fuel first
    take closer
    return [e]

/-- Fails at clauses behind several elements. -/
def lostTarget : Nat → Option Nat → Reader Unit
  | 0, _ => misplaced
  | fuel + 1, first => do
    match first with
    | some line => if ← succeeds (clauses fuel) then remarkOn line .comprehensionTarget
    | none => pure ()
    misplaced

/-- Reads the clauses of a comprehension behind its element. -/
def comprehension : Nat → Expr → Reader Unit
  | 0, _ => misplaced
  | fuel + 1, e => do
    clauses fuel
    match e with
    | .starred _ line => remarkOn line (.unpackingComprehension false)
    | _ => return

def listDisplay : Nat → Nat → Reader Expr
  | 0, _ => misplaced
  | fuel + 1, line => do
    if ← accept "]" then return .list [] line
    let e ← starNamed fuel
    if ← accept "," then return .list (e :: (← elements fuel "]" (some e.line))) line
    if startsClause (← get) then
      comprehension fuel e
      take "]"
      return .other "list comprehension" true line
    take "]"
    return .list [e] line

/-- Reads a set or a mapping, behind the opening brace. -/
def braces : Nat → Nat → Reader Expr
  | 0, _ => misplaced
  | fuel + 1, line => do
    let mapping : Expr := .other "dict literal" true line
    if ← accept "\x7d" then return mapping
    if ← accept "**" then
      let _ ← arithmetic fuel
      if startsClause (← get) then
        clauses fuel
        if ← accept "\x7d" then remarkOn line (.unpackingComprehension true)
        misplaced
      pairs fuel
      return mapping
    let start ← get
    let named := frontPair ":=" start || frontIs "*" start
    let e ← if named then starNamed fuel else expression fuel
    if !named && (← sees ":") then
      pairValue fuel
      if startsClause (← get) then
        clauses fuel
        take "\x7d"
        return .other "dict comprehension" true line
      pairs fuel
      return mapping
    unless named do misusedMark fuel start e
    if startsClause (← get) then
      comprehension fuel e
      take "\x7d"
      return .other "set comprehension" true line
    if ← accept "," then
      let _ ← elements fuel "\x7d" (some e.line)
    else take "\x7d"
    return .other "set display" true line

/-- Reads the value of a key, from its colon on. -/
def pairValue : Nat → Reader Unit
  | 0 => misplaced
  | fuel + 1 => do
    let line ← frontLine
    take ":"
    if ← seesAny ["\x7d", ","] then remarkOn line .keyWithoutValue
    let starLine ← frontLine
    if ← sees "*" then
      let valued ← succeeds do
        skip
        arithmetic fuel
      if valued then remarkOn starLine .starredValue
      misplaced
    let _ ← expression fuel

/-- Reads what follows an entry of a mapping, up to the closing brace. -/
def pairs : Nat → Reader Unit
  | 0 => misplaced
  | fuel + 1 => do
    if ← accept "," then
      if ← accept "\x7d" then return
      if ← accept "**" then
        let _ ← arithmetic fuel
      else
        let key ← expression fuel
        unless ← sees ":" do
          if frontBad (← get) then misplaced
          remarkOn key.line .keyAlone
        pairValue fuel
      pairs fuel
    else take "\x7d"

/-- Reads an expression that may be given a name. -/
def namedExpression : Nat → Reader Expr
  | 0 => misplaced
  | fuel + 1 => do
    let start ← get
    if frontPair ":=" start then
      set start.tail.tail
      let _ ← expression fuel
      return .other "named expression" false (lineOf start)
    let e ← expression fuel
    misusedMark fuel start e
    return e

/-- Fails when an expression, which started at `start`, is followed by a mark that would give a name
to it or assign to it. -/
def misusedMark : Nat → List Token → Expr → Reader Unit
  | 0, _, _ => misplaced
  | fuel + 1, start, e => do
    if ← sees ":=" then
      let valued ← succeeds do
        skip
        expression fuel
      if valued then remarkOn e.line (.naming e.kind)
      misplaced
    if ← sees "=" then
      let here ← get
      let bare := frontPair "=" start && start.tail.length == here.length
      unless e.isComparable do misplaced
      let seen ← comparesByMistake fuel
        (if bare then .equalsSign else .assignment e.kind true) e.line
      throw (.misplaced here seen)

/-- Fails at an equals sign with one operand of arithmetic behind it, with a remark on a line, or
else gives the place up to which was looked for the operand. -/
def comparesByMistake : Nat → Remark → Nat → Reader (List Token)
  | 0, _, _ => misplaced
  | fuel + 1, told, line => do
    match ← attempt (do skip; arithmetic fuel) with
    | .ok (_, rest) =>
      if frontBad rest then throw (.misplaced rest rest)
      unless frontIs "=" rest || frontIs ":=" rest do
        set rest
        remarkOn line told
      return rest
    | .error seen => return seen

/-- Reads an element of a list: an expression, or a starred operand of arithmetic. -/
def starNamed : Nat → Reader Expr
  | 0 => misplaced
  | fuel + 1 => do
    let line ← frontLine
    if ← accept "*" then return .starred (← arithmetic fuel) line
    namedExpression fuel

def starExpression : Nat → Reader Expr
  | 0 => misplaced
  | fuel + 1 => do
    let line ← frontLine
    if ← accept "*" then return .starred (← arithmetic fuel) line
    expression fuel

/-- Reads expressions parted by commas; a comma may end the list and makes one of a single
expression. -/
def starExpressions : Nat → Reader Expr
  | 0 => misplaced
  | fuel + 1 => do
    let e ← starExpression fuel
    if ← accept "," then return .tuple (e :: (← moreExpressions fuel)) e.line
    return e

def moreExpressions : Nat → Reader (List Expr)
  | 0 => misplaced
  | fuel + 1 => do
    let ts ← get
    if startsExpression ts || frontIs "*" ts then
      let e ← starExpression fuel
      if ← accept "," then return e :: (← moreExpressions fuel)
      return [e]
    return []

def yieldExpression : Nat → Reader Expr
  | 0 => misplaced
  | fuel + 1 => do
    let line ← frontLine
    take "yield"
    if ← accept "from" then
      let _ ← expression fuel
    else
      let ts ← get
      if startsExpression ts || frontIs "*" ts then
        let _ ← starExpressions fuel
    return .other "yield expression" false line

/-- Reads subscripts up to the closing bracket. -/
def slices : Nat → Reader Unit
  | 0 => misplaced
  | fuel + 1 => do
    if ← accept "*" then
      let _ ← expression fuel
    else slice fuel
    if ← accept "," then
      unless ← accept "]" do slices fuel
    else take "]"

def slice : Nat → Reader Unit
  | 0 => misplaced
  | fuel + 1 => do
    let start ← get
    if frontPair ":=" start then
      let _ ← namedExpression fuel
    else if frontIs ":" start then bounds fuel
    else
      let e ← expression fuel
      if ← sees ":" then bounds fuel else misusedMark fuel start e

/-- Reads the end and the step of a slice. -/
def bounds : Nat → Reader Unit
  | 0 => misplaced
  | fuel + 1 => do
    take ":"
    optional fuel
    if ← accept ":" then optional fuel

/-- Reads an expression, if one starts here. -/
def optional : Nat → Reader Unit
  | 0 => misplaced
  | fuel + 1 => do
    if startsExpression (← get) then
      let _ ← expression fuel

/-- Reads arguments up to the closing parenthesis. In a call, clauses may follow a single
argument. -/
def arguments : Nat → Bool → Arguments → Reader Unit
  | 0, _, _ => misplaced
  | fuel + 1, call, a => do
    if ← accept ")" then return
    let start ← get
    let line := lineOf start
    let mut next := { a with first := false }
    if ← accept "*" then
      if a.unpacked then remarkOn a.line .starredArgument
      let _ ← expression fuel
    else if ← accept "**" then
      let _ ← expression fuel
      next := { next with unpacked := true }
    else if frontPair "=" start then
      set start.tail.tail
      let _ ← expression fuel
      if startsClause (← get) then
        if ← succeeds (clauses fuel) then remarkOn line .equalsSign
        misplaced
      next := { next with keyword := true }
    else
      match start with
      | ⟨.name word, _, _⟩ :: rest =>
        if Expr.constants.contains word && frontIs "=" rest then
          remarkOn line (.assignment word false)
      | _ => pure ()
      let e ← if frontPair ":=" start then namedExpression fuel else expression fuel
      if ← sees "=" then remarkOn e.line .argumentAssignment
      if startsClause (← get) then
        clauses fuel
        if a.first && call && (← sees ")") then
          skip
          return
        if !a.first || (← sees ",") then remarkOn e.line .bareGenerator
        misplaced
      if a.unpacked || a.keyword then remark (.positionalArgument a.unpacked)
    if ← accept "," then arguments fuel call next else take ")"

/-- Reads the clauses of a comprehension. -/
def clauses : Nat → Reader Unit
  | 0 => misplaced
  | fuel + 1 => do
    let _ ← accept "async"
    take "for"
    loopTargets fuel
    take "in"
    let _ ← disjunction fuel
    conditions fuel
    if startsClause (← get) then clauses fuel

def conditions : Nat → Reader Unit
  | 0 => misplaced
  | fuel + 1 => do
    if ← accept "if" then
      let _ ← disjunction fuel
      conditions fuel

/-- Reads a target, which may be starred. -/
def target : Nat → Reader Expr
  | 0 => misplaced
  | fuel + 1 => do
    let line ← frontLine
    if ← accept "*" then return .starred (← primary fuel) line
    primary fuel

/-- Reads targets parted by commas; a comma may end them. -/
def targets : Nat → Reader (List Expr)
  | 0 => misplaced
  | fuel + 1 => do
    let e ← target fuel
    if ← accept "," then
      let ts ← get
      if startsExpression ts || frontIs "*" ts then return e :: (← targets fuel)
    return [e]

/-- Reads the targets of a loop, up to `in`. -/
def loopTargets : Nat → Reader Unit
  | 0 => misplaced
  | fuel + 1 => do
    let fails (rest : List Token) : Reader Unit := do
      match ← attempt (starExpressions fuel) with
      | .ok (e, _) =>
        match e.invalid? .looping with
        | some piece => remarkOn piece.line (.assignment piece.kind false)
        | none => throw (.misplaced rest rest)
      | .error _ => throw (.misplaced rest rest)
    match ← attempt (targets fuel) with
    | .ok (items, rest) =>
      if frontIs "in" rest && (Expr.invalidItem? .assigning items).isNone then set rest
      else fails rest
    | .error rest => fails rest

/-- Reads parameters up to a closing mark, which stays. -/
def parameters : Nat → Bool → String → Parameters → Reader Unit
  | 0, _, _, _ => misplaced
  | fuel + 1, annotated, closer, p => do
    if ← sees closer then return
    let start ← get
    let line := lineOf start
    let mut next := p
    if p.unpacked then
      if (frontName? start).isSome || (← seesAny ["*", "**", "/"]) then remark .lateParameter
      misplaced
    if ← sees "/" then
      if p.star then remark .lateSlash
      if p.slash then remark .secondSlash
      if p.count == 0 then
        if frontIs "," start.tail then remark .firstSlash
        misplaced
      skip
      if ← sees "*" then remark .slashBeforeStar
      next := { next with slash := true }
    else if ← accept "*" then
      if p.star then
        if (← sees ",") || (frontName? (← get)).isSome then remarkOn line .secondStar
        misplaced
      if ← sees "," then
        let behind := (← get).tail
        if frontIs closer behind || frontIs "**" behind then remarkOn line .bareStar
      else if ← sees closer then remarkOn line .bareStar
      else
        let _ ← takeName
        parameterType fuel annotated true
        if ← sees "=" then remark (.starDefault false)
      next := { next with star := true }
    else if ← accept "**" then
      let _ ← takeName
      parameterType fuel annotated false
      if ← sees "=" then remark (.starDefault true)
      next := { next with unpacked := true }
    else if ← sees "(" then
      let closed ← succeeds do
        skip
        parameterNames fuel
      if closed then remark (.parameterGroup (!annotated))
      misplaced
    else
      let _ ← takeName
      parameterType fuel annotated false
      if ← sees "=" then
        let equalsLine ← frontLine
        skip
        if (← sees ",") || (← sees closer) then remarkOn equalsLine .missingDefault
        let _ ← expression fuel
        next := { next with defaulted := true, count := p.count + 1 }
      else
        if p.defaulted && !p.star then
          if (← sees ",") || (← sees closer) then remarkOn line .plainParameter
        next := { next with count := p.count + 1 }
    if ← accept "," then parameters fuel annotated closer next
    else unless ← sees closer do misplaced

/-- Reads the type of a parameter, if parameters have types and one is given. -/
def parameterType : Nat → Bool → Bool → Reader Unit
  | 0, _, _ => misplaced
  | fuel + 1, annotated, starred => do
    if annotated then
      if ← accept ":" then
        let _ ← if starred then starExpression fuel else expression fuel

/-- Reads names in parentheses, behind the opening one. -/
def parameterNames : Nat → Reader Unit
  | 0 => misplaced
  | fuel + 1 => do
    let _ ← takeName
    if ← accept "," then
      unless ← accept ")" do parameterNames fuel
    else take ")"

end

end FlowMachine.Module
