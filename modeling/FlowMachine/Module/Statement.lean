import FlowMachine.Module.Pattern

/-!
# Statements of a written module

A reader of module texts. It keeps the names that a module defines at its top level and the number
of its tests, and otherwise only decides whether the text is well formed.
-/
namespace FlowMachine.Module

/-- What a module defines at its top level, and its tests at any level. -/
structure Outline where
  names : List String := []
  tests : Nat := 0
deriving DecidableEq, Repr

def Outline.append (a b : Outline) : Outline := ⟨a.names ++ b.names, a.tests + b.tests⟩

def augmentedMarks : List String :=
  ["+=", "-=", "*=", "/=", "//=", "%=", "@=", "**=", "<<=", ">>=", "&=", "|=", "^="]

/-- The names that targets bind, of which each stands alone. -/
def boundNames (targets : List Expr) : List String :=
  targets.filterMap fun e => match e with
    | .name word _ => some word
    | _ => none

/-- Reads a value: what `yield` gives, or expressions. -/
def value (fuel : Nat) : Reader Expr := do
  if ← sees "yield" then yieldExpression fuel else starExpressions fuel

/-- Fails at an equals sign behind something that is no target. The last piece in front of the first
equals sign, which stands at `first`, can be meant for a comparison. -/
def misassigned (fuel : Nat) (before : Expr) (first : List Token) (e : Expr) : Reader Outline := do
  let last := match before with
    | .tuple items _ => items.getLast?.getD before
    | before => before
  let here ← get
  set first
  if last.isComparable then
    let told := match last with
      | .name _ _ => .equalsSign
      | last => .assignment last.kind true
    let _ ← comparesByMistake fuel told last.line
  set here
  match e.invalid? .assigning with
  | some piece => remarkOn piece.line (.assignment piece.kind false)
  | none => misplaced

/-- Reads the further targets and the value of an assignment, behind targets of which `before` are
the first, with their equals sign at `first`. -/
def assignment (fuel : Nat) (before : Expr) (first : List Token) : Nat → List Expr → Reader Outline
  | 0, _ => misplaced
  | steps + 1, targets => do
    take "="
    let line ← frontLine
    let yields ← sees "yield"
    let e ← value fuel
    if ← sees "=" then
      if yields then remarkOn line .yieldAssignment
      if (e.invalid? .assigning).isSome then misassigned fuel before first e
      else assignment fuel before first steps (targets ++ [e])
    else return { names := boundNames targets }

/-- Fails at a colon behind something that cannot be annotated. -/
def misannotated (fuel : Nat) (e : Expr) : Reader Outline := do
  let given ← succeeds do
    skip
    expression fuel
  if given then
    match e with
    | .tuple _ line => remarkOn line (.annotated (some "tuple"))
    | .list _ line => remarkOn line (.annotated (some "list"))
    | .starred _ _ => misplaced
    | e => remarkOn e.line (.annotated none)
  misplaced

/-- Reads an expression, an assignment or an annotated assignment. -/
def expressionStatement (fuel : Nat) : Reader Outline := do
  let line ← frontLine
  let yields ← sees "yield"
  let e ← value fuel
  if yields then
    if ← sees "=" then remarkOn line .yieldAssignment
    return {}
  if ← sees ":" then
    unless e.isSingle do
      let _ ← misannotated fuel e
    skip
    let _ ← expression fuel
    if ← accept "=" then
      let _ ← value fuel
    return { names := boundNames [e] }
  if ← seesAny augmentedMarks then
    unless e.isSingle do
      let given ← succeeds do
        skip
        value fuel
      if given then remarkOn e.line (.augmentation e.kind)
      misplaced
    skip
    let _ ← value fuel
    return {}
  if ← sees "=" then
    let first ← get
    if (e.invalid? .assigning).isSome then misassigned fuel e first e
    else assignment fuel e first fuel [e]
  else return {}

/-- Reads imported names parted by commas, each with an optional other name. -/
def importedNames (dotted : Bool) : Nat → Reader Unit
  | 0 => misplaced
  | fuel + 1 => do
    if dotted then dottedName fuel
    else
      let _ ← takeName
    if ← accept "as" then
      let _ ← takeName
    if ← sees "," then
      let behind := (← get).tail
      unless frontIs ")" behind do
        skip
        if !dotted && frontBreak behind then remarkOn (lineOf behind) .trailingComma
        importedNames dotted fuel

def dropDots (ts : List Token) : List Token :=
  ts.dropWhile fun t => t.lexeme == .mark "." || t.lexeme == .mark "..."

/-- Reads an import behind `from`. -/
def importFrom (fuel : Nat) : Reader Unit := do
  let before ← get
  modify dropDots
  let after ← get
  unless frontIs "import" after && after.length < before.length do dottedName fuel
  take "import"
  if ← accept "*" then return
  if ← accept "(" then
    importedNames false fuel
    let _ ← accept ","
    take ")"
  else importedNames false fuel

/-- Reads names parted by commas. -/
def nameList : Nat → Reader Unit
  | 0 => misplaced
  | fuel + 1 => do
    let _ ← takeName
    if ← accept "," then nameList fuel

/-- Reads what is deleted: names and parts of objects, alone or in brackets. -/
def deletion (fuel : Nat) : Reader Unit := do
  let e ← starExpressions fuel
  match e.invalid? .deleting with
  | some piece => remarkOn piece.line (.deletion piece.kind)
  | none => return

/-- Reads a statement that takes no block. -/
def smallStatement (fuel : Nat) : Reader Outline := do
  if ← acceptAny ["pass", "break", "continue"] then return {}
  if ← accept "return" then
    let ts ← get
    if startsExpression ts || frontIs "*" ts then
      let _ ← starExpressions fuel
    return {}
  if ← accept "raise" then
    if startsExpression (← get) then
      let _ ← expression fuel
      if ← accept "from" then
        let _ ← expression fuel
    return {}
  if ← acceptAny ["global", "nonlocal"] then
    nameList fuel
    return {}
  if ← accept "del" then
    deletion fuel
    return {}
  if ← accept "assert" then
    let _ ← expression fuel
    if ← accept "," then
      let _ ← expression fuel
    return {}
  if ← accept "import" then
    importedNames true fuel
    return {}
  if ← accept "from" then
    importFrom fuel
    return {}
  expressionStatement fuel

/-- Reads statements of one line up to its end. -/
def smallStatements : Nat → Reader Outline
  | 0 => misplaced
  | fuel + 1 => do
    let here ← smallStatement fuel
    if ← accept ";" then
      if frontBreak (← get) then
        skip
        return here
      return here.append (← smallStatements fuel)
    else
      takeNewline
      return here

/-- Reads what a `with` statement opens, parted by commas. In parentheses a comma may end it. -/
def withItems (closer : String) : Nat → Reader Unit
  | 0 => misplaced
  | fuel + 1 => do
    let _ ← expression fuel
    if ← accept "as" then
      let start ← get
      let e ← target fuel
      let ends (ts : List Token) : Bool := frontBreak ts || [",", ")", ":"].any (frontIs · ts)
      if (e.invalid? .assigning).isSome || !ends (← get) then
        let here ← get
        set start
        match ← attempt (expression fuel) with
        | .ok (e, rest) =>
          match if ends rest then e.invalid? .assigning else none with
          | some piece => remarkOn piece.line (.assignment piece.kind false)
          | none => throw (.misplaced here here)
        | .error seen => throw (.misplaced here seen)
    if ← accept "," then
      unless closer == ")" && (← sees closer) do withItems closer fuel

/-- Reads what a `with` statement opens, and the colon behind it. -/
def withHead (fuel : Nat) : Reader Unit := do
  let bare : Reader Unit := do
    withItems ":" fuel
    takeColon
  if ← sees "(" then
    let inParentheses : Reader Unit := do
      take "("
      withItems ")" fuel
      take ")"
      take ":"
    either inParentheses bare
  else bare

mutual

/-- Reads the block of a statement behind its colon: the rest of its line, or indented lines. -/
def block : Nat → String → Nat → Reader Outline
  | 0, _, _ => misplaced
  | fuel + 1, owner, line => do
    match ← get with
    | ⟨.newline, _, _⟩ :: ⟨.indent, _, _⟩ :: rest =>
      set rest
      statements fuel
    | ⟨.newline, _, _⟩ :: rest =>
      set rest
      if frontBad rest then misplaced
      remark (.noBlock owner line)
    | _ => smallStatements fuel

/-- Reads statements up to the end of their indentation. -/
def statements : Nat → Reader Outline
  | 0 => misplaced
  | fuel + 1 => do
    let here ← statement fuel
    match ← get with
    | ⟨.dedent, _, _⟩ :: rest =>
      set rest
      return here
    | ⟨.eof, _, _⟩ :: _ => return here
    | _ => return here.append (← statements fuel)

/-- Reads one statement. -/
def statement : Nat → Reader Outline
  | 0 => misplaced
  | fuel + 1 => do
    let line ← frontLine
    if ← accept "@" then
      let _ ← namedExpression fuel
      takeNewline
      decorated fuel
    else if ← seesAny ["def", "class"] then definition fuel false
    else if ← accept "async" then
      if ← sees "def" then definition fuel true
      else if ← sees "for" then loop fuel line
      else if ← sees "with" then context fuel line
      else misplaced
    else if ← accept "if" then
      let _ ← namedExpression fuel
      takeColon
      let body ← block fuel "'if' statement" line
      branches fuel body.tests
    else if ← accept "while" then
      let _ ← namedExpression fuel
      takeColon
      let body ← block fuel "'while' statement" line
      otherwise fuel body.tests
    else if ← sees "for" then loop fuel line
    else if ← sees "with" then context fuel line
    else if ← accept "try" then
      demand ":"
      let body ← block fuel "'try' statement" line
      handlers fuel body.tests
    else if ← sees "match" then choice fuel
    else smallStatements fuel

/-- Reads what decorators stand in front of. -/
def decorated : Nat → Reader Outline
  | 0 => misplaced
  | fuel + 1 => do
    if ← seesAny ["@", "def", "class"] then statement fuel
    else if ← accept "async" then
      unless ← sees "def" do misplaced
      definition fuel true
    else misplaced

/-- Reads a function or a class. A function that waits is none of the names and no test. -/
def definition : Nat → Bool → Reader Outline
  | 0, _ => misplaced
  | fuel + 1, waits => do
    let line ← frontLine
    if ← accept "def" then
      let name ← takeName
      demand "("
      parameters fuel true ")" {}
      take ")"
      if ← sees "->" then
        let result ← attempt do
          skip
          expression fuel
        match result with
        | .ok (_, rest) => set rest
        | .error _ => remark (.expected ":")
      demand ":"
      let body ← block fuel "function definition" line
      let own := if "test".toList.isPrefixOf name.toList then 1 else 0
      return if waits then { tests := body.tests }
        else { names := [name], tests := body.tests + own }
    else
      take "class"
      let name ← takeName
      if ← accept "(" then arguments fuel false { line := ← frontLine }
      takeColon
      let body ← block fuel "class definition" line
      return { names := [name], tests := body.tests }

def loop : Nat → Nat → Reader Outline
  | 0, _ => misplaced
  | fuel + 1, line => do
    take "for"
    loopTargets fuel
    take "in"
    let _ ← starExpressions fuel
    takeColon
    let body ← block fuel "'for' statement" line
    otherwise fuel body.tests

def context : Nat → Nat → Reader Outline
  | 0, _ => misplaced
  | fuel + 1, line => do
    take "with"
    withHead fuel
    let body ← block fuel "'with' statement" line
    return { tests := body.tests }

/-- Reads the branches behind the first of a condition, where `tests` were counted in front of
them. -/
def branches : Nat → Nat → Reader Outline
  | 0, _ => misplaced
  | fuel + 1, tests => do
    let line ← frontLine
    if ← accept "elif" then
      let _ ← namedExpression fuel
      takeColon
      let body ← block fuel "'elif' statement" line
      branches fuel (tests + body.tests)
    else otherwise fuel tests

/-- Reads the last branch of a statement, if it has one. -/
def otherwise : Nat → Nat → Reader Outline
  | 0, _ => misplaced
  | fuel + 1, tests => do
    let line ← frontLine
    if ← accept "else" then
      demand ":"
      let body ← block fuel "'else' statement" line
      return { tests := tests + body.tests }
    else return { tests }

/-- Reads what follows the block of `try`: handlers, a branch without fault, and a last block. -/
def handlers : Nat → Nat → Reader Outline
  | 0, _ => misplaced
  | fuel + 1, tests => do
    if ← sees "finally" then lastly fuel tests
    else if ← sees "except" then
      let starred := frontIs "*" (← get).tail
      let counted ← handler fuel starred tests
      let outline ← otherwise fuel counted
      lastly fuel outline.tests
    else
      if frontBad (← get) then misplaced
      remark .noHandler

/-- Reads handlers one after the other: all of them have a star, or none has. -/
def handler : Nat → Bool → Nat → Reader Nat
  | 0, _, _ => misplaced
  | fuel + 1, starred, tests => do
    let line ← frontLine
    if ← accept "except" then
      let star ← accept "*"
      let owner := if star then "'except*' statement" else "'except' statement"
      if star then
        if (← sees ":") || frontBreak (← get) then remarkOn line .handlerWithoutType
      if startsExpression (← get) then
        let e ← expression fuel
        if ← sees "," then
          let several ← succeeds do
            skip
            let _ ← starExpressions fuel
            if ← accept "as" then
              let _ ← takeName
            take ":"
          if several then remarkOn e.line .handlerList
          misplaced
        if ← accept "as" then
          let _ ← takeName
      takeColon
      let body ← block fuel owner line
      if star != starred then remarkOn line .handlersMixed
      handler fuel starred (tests + body.tests)
    else return tests

def lastly : Nat → Nat → Reader Outline
  | 0, _ => misplaced
  | fuel + 1, tests => do
    let line ← frontLine
    if ← accept "finally" then
      demand ":"
      let body ← block fuel "'finally' statement" line
      return { tests := tests + body.tests }
    else return { tests }

/-- Reads a choice by patterns, or else a statement that starts with a name of that spelling. -/
def choice : Nat → Reader Outline
  | 0 => misplaced
  | fuel + 1 => fun telling ts =>
    match either (cases fuel) (smallStatements fuel) telling ts with
    | .error (.misplaced rest seen) =>
      match (do skip; subject fuel : Reader Unit) telling ts with
      | .ok (_, behind) =>
        if frontBreak behind then .error (.remarked (.expected ":") (lineOf behind) behind)
        else .error (.misplaced rest seen)
      | .error _ => .error (.misplaced rest seen)
    | result => result

/-- Reads what a choice looks at. -/
def subject : Nat → Reader Unit
  | 0 => misplaced
  | fuel + 1 => do
    let starred ← sees "*"
    let _ ← starNamed fuel
    if ← accept "," then
      unless ← sees ":" do subject fuel
    else if starred then misplaced

def cases : Nat → Reader Outline
  | 0 => misplaced
  | fuel + 1 => do
    let line ← frontLine
    skip
    subject fuel
    take ":"
    takeNewline
    match ← get with
    | ⟨.indent, _, _⟩ :: rest =>
      set rest
      unless ← sees "case" do misplaced
      caseBlocks fuel 0
    | ts =>
      if frontBad ts then misplaced
      remark (.noBlock "'match' statement" line)

/-- Reads cases up to the end of their indentation, where `tests` were counted in front of them. -/
def caseBlocks : Nat → Nat → Reader Outline
  | 0, _ => misplaced
  | fuel + 1, tests => do
    let line ← frontLine
    take "case"
    patterns fuel
    if ← accept "if" then
      let _ ← namedExpression fuel
    takeColon
    let body ← block fuel "'case' statement" line
    match ← get with
    | ⟨.dedent, _, _⟩ :: rest =>
      set rest
      return { tests := tests + body.tests }
    | ⟨.eof, _, _⟩ :: _ => return { tests := tests + body.tests }
    | _ => caseBlocks fuel (tests + body.tests)

end

/-- Reads a whole module. -/
def moduleBody (fuel : Nat) : Reader Outline := do
  match ← get with
  | ⟨.eof, _, _⟩ :: _ => return {}
  | _ =>
    let outline ← statements fuel
    match ← get with
    | ⟨.eof, _, _⟩ :: _ => return outline
    | _ => misplaced

end FlowMachine.Module
