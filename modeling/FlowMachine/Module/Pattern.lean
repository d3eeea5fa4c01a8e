import FlowMachine.Module.Expression

/-!
# Patterns of a written module

The patterns behind `case`: literals, names, parts of objects, sequences, mappings and classes, with
alternatives between bars and a name given at the end.
-/
namespace FlowMachine.Module

/-- Takes a number, which may have a sign. -/
def signedNumber : Reader Unit := do
  let _ ← accept "-"
  match ← get with
  | ⟨.number, _, _⟩ :: rest => set rest
  | _ => misplaced

/-- Takes a name with attributes behind it. -/
def dottedName : Nat → Reader Unit
  | 0 => misplaced
  | fuel + 1 => do
    let _ ← takeName
    if ← accept "." then dottedName fuel

mutual

/-- Reads a pattern with alternatives, and the name that it is given. -/
def pattern : Nat → Reader Unit
  | 0 => misplaced
  | fuel + 1 => do
    alternatives fuel
    if ← accept "as" then
      if ← sees "_" then misplaced
      let _ ← takeName

def alternatives : Nat → Reader Unit
  | 0 => misplaced
  | fuel + 1 => do
    closedPattern fuel
    if ← accept "|" then alternatives fuel

/-- Reads a pattern that stands for itself. -/
def closedPattern : Nat → Reader Unit
  | 0 => misplaced
  | fuel + 1 => do
    match ← get with
    | ⟨.number, _, _⟩ :: _ => numberPattern
    | ⟨.string _ _, _, _⟩ :: _ =>
      let _ ← takeStrings
    | ⟨.mark text, _, _⟩ :: rest =>
      if text == "-" then numberPattern
      else if text == "(" then
        set rest
        unless ← accept ")" do sequencePatterns fuel ")" true
      else if text == "[" then
        set rest
        unless ← accept "]" do sequencePatterns fuel "]" false
      else if text == "\x7b" then
        set rest
        mappingPatterns fuel
      else misplaced
    | ⟨.name word, _, _⟩ :: rest =>
      if Expr.constants.contains word then set rest
      else
        dottedName fuel
        if ← accept "(" then classPatterns fuel false
        else if ← sees "=" then misplaced
    | _ => misplaced

/-- Reads a number, or a sum of a real and an imaginary one. -/
def numberPattern : Reader Unit := do
  signedNumber
  if ← acceptAny ["+", "-"] then
    match ← get with
    | ⟨.number, _, _⟩ :: rest => set rest
    | _ => misplaced

/-- Reads patterns of a sequence up to a closing mark. Alone in parentheses, a pattern is only
grouped and has no star. -/
def sequencePatterns : Nat → String → Bool → Reader Unit
  | 0, _, _ => misplaced
  | fuel + 1, closer, alone => do
    let starred ← sees "*"
    starPattern fuel
    if ← accept "," then
      unless ← accept closer do sequencePatterns fuel closer false
    else
      if alone && starred then misplaced
      take closer

def starPattern : Nat → Reader Unit
  | 0 => misplaced
  | fuel + 1 => do
    if ← accept "*" then
      let _ ← takeName
    else pattern fuel

/-- Reads entries of a mapping up to the closing brace; the rest of it comes last. -/
def mappingPatterns : Nat → Reader Unit
  | 0 => misplaced
  | fuel + 1 => do
    if ← accept "\x7d" then return
    if ← accept "**" then
      let _ ← takeName
      let _ ← accept ","
      take "\x7d"
    else
      match ← get with
      | ⟨.name word, _, _⟩ :: rest =>
        if Expr.constants.contains word then set rest
        else
          unless frontIs "." rest do
            skip
            misplaced
          dottedName fuel
      | ⟨.string _ _, _, _⟩ :: _ =>
        let _ ← takeStrings
      | _ => numberPattern
      take ":"
      pattern fuel
      if ← accept "," then mappingPatterns fuel else take "\x7d"

/-- Reads patterns of a class up to the closing parenthesis; those with keywords come last. -/
def classPatterns : Nat → Bool → Reader Unit
  | 0, _ => misplaced
  | fuel + 1, keyword => do
    if ← accept ")" then return
    let start ← get
    let named := frontPair "=" start
    if named then set start.tail.tail
    pattern fuel
    if keyword && !named then misplaced
    if ← accept "," then classPatterns fuel (keyword || named) else take ")"

end

/-- Reads the patterns of a case; several of them make a sequence. -/
def patterns : Nat → Reader Unit
  | 0 => misplaced
  | fuel + 1 => do
    let starred ← sees "*"
    starPattern fuel
    if ← accept "," then
      unless (← seesAny [":", "if"]) do patterns fuel
    else if starred then misplaced

end FlowMachine.Module
