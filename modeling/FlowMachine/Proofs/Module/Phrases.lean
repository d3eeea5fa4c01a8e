import FlowMachine.Proofs.Module.Kinds

/-!
# Readers of kinds

Every reader of expressions has a reader of kinds beside it, which runs over the kinds of tokens
alone and has no errors and no trees to build. It takes less than the reader of tokens does: starred
expressions, nested loops of comprehensions and other things that no written document has are left
out. What it takes is decided by running it.
-/
namespace FlowMachine.Module

/-- What is left behind a phrase, and whether the phrase is a name or a part of an object. -/
abbrev Left := Bool × List Kind

namespace Phrase

/-- A comparison by an operator stands at the front. -/
def comparesAt (ks : List Kind) : Bool :=
  [Sign.less, .greater, .atMost, .atLeast, .same, .differs].any (isAt · ks)

/-- An operator between two operands of arithmetic stands at the front. -/
def joinsAt (ks : List Kind) : Bool := [Sign.plus, .minus, .star, .at, .doubleStar].any (isAt · ks)

/-- Drops a sign, if it is at the front. -/
def dropSign (s : Sign) (ks : List Kind) : List Kind := if isAt s ks then ks.tail else ks

/-- The kinds behind a comparison, if there is one at the front. -/
def behindComparison? (ks : List Kind) : Option (List Kind) :=
  if comparesAt ks || isAt .in ks then some ks.tail
  else if isAt .is ks then some (dropSign .not ks.tail)
  else if isAt .not ks && isAt .in ks.tail then some ks.tail.tail
  else none

/-- A token of the kind stands at the front. -/
def isKind (k : Kind) (ks : List Kind) : Bool := ks.head? == some k

/-- Takes a sign. -/
def behind? (s : Sign) (ks : List Kind) : Option (List Kind) :=
  if isAt s ks then some ks.tail else none

mutual

def expression : Nat → List Kind → Option Left
  | 0, _ => none
  | f + 1, ks => do
    let e ← disjunction f ks
    if starts e.2 then none else conditional f e.1 e.2

def conditional : Nat → Bool → List Kind → Option Left
  | 0, _, _ => none
  | f + 1, single, ks =>
    if isAt .if ks then do
      let condition ← disjunction f ks.tail
      let e ← expression f (← behind? .else condition.2)
      return (false, e.2)
    else some (single, ks)

def disjunction : Nat → List Kind → Option Left
  | 0, _ => none
  | f + 1, ks => do
    let e ← inversion f ks
    if isAt .and e.2 || isAt .or e.2 then
      let more ← disjunction f e.2.tail
      return (false, more.2)
    return e

def inversion : Nat → List Kind → Option Left
  | 0, _ => none
  | f + 1, ks =>
    if isAt .not ks then do
      let e ← inversion f ks.tail
      return (false, e.2)
    else comparison f ks

def comparison : Nat → List Kind → Option Left
  | 0, _ => none
  | f + 1, ks => do
    let e ← arithmetic f ks
    match behindComparison? e.2 with
    | some ks =>
      let more ← comparison f ks
      return (false, more.2)
    | none => return e

def arithmetic : Nat → List Kind → Option Left
  | 0, _ => none
  | f + 1, ks => do
    let e ← factor f ks
    if joinsAt e.2 then
      let more ← arithmetic f e.2.tail
      return (false, more.2)
    return e

def factor : Nat → List Kind → Option Left
  | 0, _ => none
  | f + 1, ks =>
    if isAt .minus ks || isAt .plus ks then do
      let e ← factor f ks.tail
      return (false, e.2)
    else primary f ks

def primary : Nat → List Kind → Option Left
  | 0, _ => none
  | f + 1, ks => do
    let e ← atom f ks
    trailers f e.1 e.2

def atom : Nat → List Kind → Option Left
  | 0, _ => none
  | f + 1, ks =>
    match ks with
    | .number :: ks => some (false, ks)
    | .string :: ks => some (false, ks.dropWhile (· == .string))
    | .display :: ks => some (false, ks)
    | .name :: ks => some (true, ks)
    | .sign .none :: ks => some (false, ks)
    | .sign .true :: ks => some (false, ks)
    | .sign .false :: ks => some (false, ks)
    | .sign .openParen :: ks => (group f ks).map (false, ·)
    | .sign .openBracket :: ks => (listDisplay f ks).map (false, ·)
    | .sign .openBrace :: ks => (braces f ks).map (false, ·)
    | _ => none

def trailers : Nat → Bool → List Kind → Option Left
  | 0, _, _ => none
  | f + 1, single, ks =>
    if isKind .display ks then none
    else if isAt .openParen ks then do trailers f false (← arguments f false ks.tail)
    else if isAt .openBracket ks then do trailers f true (← slices f ks.tail)
    else if isAt .dot ks then
      if isKind .name ks.tail || isAt .match ks.tail then trailers f true ks.tail.tail else none
    else some (single, ks)

def group : Nat → List Kind → Option (List Kind)
  | 0, _ => none
  | f + 1, ks =>
    if isAt .closeParen ks then some ks.tail
    else if isAt .doubleStar ks then none
    else do
      let e ← starNamed f ks
      if isAt .comma e.2 then elements f .closeParen e.2.tail
      else if isAt .for e.2 then none
      else behind? .closeParen e.2

def starNamed : Nat → List Kind → Option Left
  | 0, _ => none
  | f + 1, ks => if isAt .star ks then none else namedExpression f ks

def namedExpression : Nat → List Kind → Option Left
  | 0, _ => none
  | f + 1, ks => do
    let e ← expression f ks
    if isAt .equals e.2 then none else return e

def elements : Nat → Sign → List Kind → Option (List Kind)
  | 0, _, _ => none
  | f + 1, closer, ks =>
    if isAt closer ks then some ks.tail
    else if isAt .for ks then none
    else do
      let e ← starNamed f ks
      if isAt .comma e.2 then elements f closer e.2.tail
      else if isAt .for e.2 then none
      else behind? closer e.2

def listDisplay : Nat → List Kind → Option (List Kind)
  | 0, _ => none
  | f + 1, ks =>
    if isAt .closeBracket ks then some ks.tail
    else do
      let e ← starNamed f ks
      if isAt .comma e.2 then elements f .closeBracket e.2.tail
      else if isAt .for e.2 then behind? .closeBracket (← comprehension f e.2)
      else behind? .closeBracket e.2

def comprehension : Nat → List Kind → Option (List Kind)
  | 0, _ => none
  | f + 1, ks => clauses f ks

def clauses : Nat → List Kind → Option (List Kind)
  | 0, _ => none
  | f + 1, ks => do
    let ks ← loopTargets f (← behind? .for ks)
    let e ← disjunction f (← behind? .in ks)
    let ks ← conditions f e.2
    if isAt .for ks then none else return ks

def conditions : Nat → List Kind → Option (List Kind)
  | 0, _ => none
  | f + 1, ks =>
    if isAt .if ks then do
      let e ← disjunction f ks.tail
      conditions f e.2
    else some ks

def loopTargets : Nat → List Kind → Option (List Kind)
  | 0, _ => none
  | f + 1, ks => do
    let ks ← targets f ks
    if isAt .in ks then return ks else none

def targets : Nat → List Kind → Option (List Kind)
  | 0, _ => none
  | f + 1, ks => do
    let e ← target f ks
    if !e.1 then none
    else if isAt .comma e.2 then (if starts e.2.tail then targets f e.2.tail else none)
    else return e.2

def target : Nat → List Kind → Option Left
  | 0, _ => none
  | f + 1, ks => if isAt .star ks then none else primary f ks

def braces : Nat → List Kind → Option (List Kind)
  | 0, _ => none
  | f + 1, ks =>
    if isAt .closeBrace ks then some ks.tail
    else if isAt .doubleStar ks || isAt .star ks then none
    else do
      let e ← expression f ks
      if isAt .colon e.2 then
        let ks ← pairValue f e.2
        if isAt .for ks then none else pairs f ks
      else if isAt .equals e.2 || isAt .for e.2 || isAt .comma e.2 then none
      else behind? .closeBrace e.2

def pairValue : Nat → List Kind → Option (List Kind)
  | 0, _ => none
  | f + 1, ks => do
    let ks ← behind? .colon ks
    if isAt .closeBrace ks || isAt .comma ks || isAt .star ks then none
    else
      let e ← expression f ks
      return e.2

def pairs : Nat → List Kind → Option (List Kind)
  | 0, _ => none
  | f + 1, ks =>
    if isAt .comma ks then
      if isAt .closeBrace ks.tail then some ks.tail.tail
      else if isAt .doubleStar ks.tail then none
      else do
        let e ← expression f ks.tail
        if isAt .colon e.2 then pairs f (← pairValue f e.2) else none
    else behind? .closeBrace ks

def slices : Nat → List Kind → Option (List Kind)
  | 0, _ => none
  | f + 1, ks =>
    if isAt .star ks then none
    else do
      let ks ← slice f ks
      if isAt .comma ks then
        if isAt .closeBracket ks.tail then return ks.tail.tail else slices f ks.tail
      else behind? .closeBracket ks

def slice : Nat → List Kind → Option (List Kind)
  | 0, _ => none
  | f + 1, ks =>
    if isAt .colon ks then bounds f ks
    else do
      let e ← expression f ks
      if isAt .colon e.2 then bounds f e.2
      else if isAt .equals e.2 then none
      else return e.2

def bounds : Nat → List Kind → Option (List Kind)
  | 0, _ => none
  | f + 1, ks => do
    let ks ← optional f (← behind? .colon ks)
    if isAt .colon ks then none else return ks

def optional : Nat → List Kind → Option (List Kind)
  | 0, _ => none
  | f + 1, ks =>
    if starts ks then do
      let e ← expression f ks
      return e.2
    else some ks

/-- Reads arguments up to the closing parenthesis. The flag tells whether only named ones may
follow. -/
def arguments : Nat → Bool → List Kind → Option (List Kind)
  | 0, _, _ => none
  | f + 1, named, ks =>
    if isAt .closeParen ks then some ks.tail
    else if isAt .star ks then none
    else if isAt .doubleStar ks then do
      let e ← expression f ks.tail
      if isAt .comma e.2 then arguments f true e.2.tail else behind? .closeParen e.2
    else if isAt .equals ks.tail then
      if isKind .name ks then do
        let e ← expression f ks.tail.tail
        if isAt .for e.2 then none
        else if isAt .comma e.2 then arguments f true e.2.tail else behind? .closeParen e.2
      else none
    else do
      let e ← expression f ks
      if named || isAt .equals e.2 || isAt .for e.2 then none
      else if isAt .comma e.2 then arguments f false e.2.tail else behind? .closeParen e.2

end

/-- Reads an expression. -/
def starExpression : Nat → List Kind → Option Left
  | 0, _ => none
  | f + 1, ks => if isAt .star ks then none else expression f ks

/-- Reads expressions behind a comma: whether all of them are targets. -/
def moreExpressions : Nat → List Kind → Option Left
  | 0, _ => none
  | f + 1, ks =>
    if isAt .star ks then none
    else if starts ks then do
      let e ← starExpression f ks
      if isAt .comma e.2 then
        let more ← moreExpressions f e.2.tail
        return (e.1 && more.1, more.2)
      return e
    else some (true, ks)

/-- Reads expressions parted by commas: whether all of them are targets. -/
def starExpressions : Nat → List Kind → Option Left
  | 0, _ => none
  | f + 1, ks => do
    let e ← starExpression f ks
    if isAt .comma e.2 then
      let more ← moreExpressions f e.2.tail
      return (e.1 && more.1, more.2)
    return e

/-- The type of a parameter, if one is given. -/
def parameterType : Nat → List Kind → Option (List Kind)
  | 0, _ => none
  | f + 1, ks =>
    if isAt .colon ks then do
      let e ← expression f ks.tail
      return e.2
    else some ks

/-- Reads parameters up to the closing parenthesis, which stays. The flag tells whether only those
with a value may follow. -/
def parameters : Nat → Bool → List Kind → Option (List Kind)
  | 0, _, _ => none
  | f + 1, valued, ks =>
    if isAt .closeParen ks then some ks
    else if isAt .doubleStar ks then
      if isKind .name ks.tail then do
        let ks ← parameterType f ks.tail.tail
        if isAt .closeParen ks then return ks else none
      else none
    else if isKind .name ks then do
      let ks ← parameterType f ks.tail
      if isAt .equals ks then
        if isAt .comma ks.tail || isAt .closeParen ks.tail then none
        else
          let e ← expression f ks.tail
          if isAt .comma e.2 then parameters f true e.2.tail
          else if isAt .closeParen e.2 then return e.2 else none
      else if valued then none
      else if isAt .comma ks then parameters f false ks.tail
      else if isAt .closeParen ks then return ks else none
    else none

end Phrase

end FlowMachine.Module
