import FlowMachine.Proofs.Module.Phrases
import Mathlib.Tactic.SplitIfs

/-!
# Forms of lines

What a line is to the lines around it is its form, which its kinds tell. The form of a line decides
whether a block stands behind it, and the last line of a block which lines may follow.
-/
namespace FlowMachine.Module

/-- What a line is to the lines around it. -/
inductive Form where
  | plain
  | decorator
  | definition
  | condition
  | branch
  | last
  | loop
  | attempt
  | rescue
deriving DecidableEq, Repr

/-- A block stands behind a line of the form. -/
def Form.opens : Form → Bool
  | .plain => false
  | .decorator => false
  | _ => true

namespace Phrase

/-- A name with attributes behind it. -/
def dotted : List Kind → Option (List Kind)
  | .name :: .sign .dot :: ks => dotted ks
  | .name :: ks => some ks
  | _ => none

/-- Names with commas between them. A comma that a closing parenthesis follows stays. -/
def names : List Kind → Option (List Kind)
  | .name :: .sign .comma :: .sign .closeParen :: ks =>
    some (.sign .comma :: .sign .closeParen :: ks)
  | .name :: .sign .comma :: ks => names ks
  | .name :: ks => if isAt .as ks then none else some ks
  | _ => none

/-- What is imported, with or without parentheses. -/
def imported (ks : List Kind) : Option (List Kind) :=
  if isAt .openParen ks then do
    let ks ← names ks.tail
    behind? .closeParen (dropSign .comma ks)
  else names ks

/-- An expression, an assignment or an annotated assignment. -/
def assignment (f : Nat) (ks : List Kind) : Option (List Kind) := do
  let first ← starExpression f ks
  if isAt .colon first.2 then
    if first.1 then
      let type ← expression f first.2.tail
      if isAt .equals type.2 then
        let value ← starExpressions f type.2.tail
        return value.2
      else return type.2
    else none
  else if isAt .plusEquals first.2 then
    if first.1 then
      let value ← starExpressions f first.2.tail
      return value.2
    else none
  else
    let all ← starExpressions f ks
    if isAt .equals all.2 then
      if all.1 then
        let value ← starExpressions f all.2.tail
        if isAt .equals value.2 then none else return value.2
      else none
    else if isAt .colon all.2 || isAt .plusEquals all.2 then none
    else return all.2

/-- A statement that takes no block. -/
def small (f : Nat) : List Kind → Option (List Kind)
  | .sign .pass :: ks => some ks
  | .sign .continue :: ks => some ks
  | .sign .return :: ks =>
    if isAt .star ks then none
    else if starts ks then (starExpressions f ks).map (·.2) else some ks
  | .sign .assert :: ks => do
    let e ← expression f ks
    if isAt .comma e.2 then none else return e.2
  | .sign .import :: .name :: ks => if ks.isEmpty then some ks else none
  | .sign .from :: ks => do imported (← behind? .import (← dotted ks))
  | .name :: ks => assignment f (.name :: ks)
  | .string :: ks => assignment f (.string :: ks)
  | _ => none

/-- Nothing but the colon of a head is left. -/
def endsHead (ks : List Kind) : Bool := ks == [.sign .colon]

/-- An expression with a colon behind it. -/
def head (f : Nat) (ks : List Kind) : Bool := (namedExpression f ks).any (endsHead ·.2)

/-- The type of a result, if one is given, and a colon. -/
def resultHead (f : Nat) (ks : List Kind) : Bool :=
  if isAt .arrow ks then (expression f ks.tail).any (endsHead ·.2) else endsHead ks

/-- What a handler catches, and a name for it if one is given. -/
def handlerHead (f : Nat) (ks : List Kind) : Bool :=
  (expression f ks).any fun e =>
    if isAt .as e.2 then isKind .name e.2.tail && endsHead e.2.tail.tail else endsHead e.2

/-- A name, or a word that is a name where it does not stand at the front of a line. -/
def isName (k : Kind) : Bool := k == .name || k == .sign .match

/-- The form of a line. -/
def form? (ks : List Kind) : Option Form :=
  let f := 8 * ks.length + 30
  match ks with
  | .sign .at :: ks => if (namedExpression f ks).any (·.2.isEmpty) then some .decorator else none
  | .sign .funDef :: k :: .sign .openParen :: ks =>
    if isName k && (parameters f false ks).any fun ks =>
      isAt .closeParen ks && resultHead f ks.tail then
      some .definition
    else none
  | .sign .classDef :: .name :: .sign .openParen :: ks =>
    if (arguments f false ks).any endsHead then some .definition else none
  | .sign .classDef :: .name :: ks => if endsHead ks then some .definition else none
  | .sign .if :: ks => if head f ks then some .condition else none
  | .sign .elif :: ks => if head f ks then some .branch else none
  | .sign .else :: ks => if endsHead ks then some .last else none
  | .sign .while :: ks => if head f ks then some .loop else none
  | .sign .for :: ks =>
    if (loopTargets f ks).any fun ks =>
      isAt .in ks && (starExpressions f ks.tail).any (endsHead ·.2) then some .loop
    else none
  | .sign .try :: ks => if endsHead ks then some .attempt else none
  | .sign .except :: ks => if starts ks && handlerHead f ks then some .rescue else none
  | ks => if (small f ks).any (·.isEmpty) then some .plain else none

/-- A line of a form, with the readers of kinds that take its parts. -/
inductive Shape (f : Nat) : List Kind → Form → Prop where
  | decorator {ks : List Kind} {e : Left} (he : namedExpression f ks = some e)
      (hend : e.2 = []) : Shape f (.sign .at :: ks) .decorator
  | function {k : Kind} {ks ps : List Kind} (hk : isName k = true)
      (hps : parameters f false ks = some ps)
    (hclose : isAt .closeParen ps = true) (hresult : resultHead f ps.tail = true) :
    Shape f (.sign .funDef :: k :: .sign .openParen :: ks) .definition
  | subclass {ks rest : List Kind} (hbases : arguments f false ks = some rest)
      (hend : endsHead rest = true) :
    Shape f (.sign .classDef :: .name :: .sign .openParen :: ks) .definition
  | baseless {ks : List Kind} (hend : endsHead ks = true) : Shape f
      (.sign .classDef :: .name :: ks) .definition
  | condition {ks : List Kind} {e : Left} (he : namedExpression f ks = some e)
      (hend : endsHead e.2 = true) :
    Shape f (.sign .if :: ks) .condition
  | branch {ks : List Kind} {e : Left} (he : namedExpression f ks = some e)
      (hend : endsHead e.2 = true) :
    Shape f (.sign .elif :: ks) .branch
  | last {ks : List Kind} (hend : endsHead ks = true) : Shape f (.sign .else :: ks) .last
  | whileLoop {ks : List Kind} {e : Left} (he : namedExpression f ks = some e)
      (hend : endsHead e.2 = true) :
    Shape f (.sign .while :: ks) .loop
  | forLoop {ks mid : List Kind} {e : Left} (htargets : loopTargets f ks = some mid)
      (hin : isAt .in mid = true)
    (he : starExpressions f mid.tail = some e) (hend : endsHead e.2 = true) : Shape f
      (.sign .for :: ks) .loop
  | attempt {ks : List Kind} (hend : endsHead ks = true) : Shape f (.sign .try :: ks) .attempt
  | rescue {ks : List Kind} (hstarts : starts ks = true) (hend : handlerHead f ks = true) : Shape f
      (.sign .except :: ks) .rescue
  | plain {ks : List Kind} (h : small f ks = some []) : Shape f ks .plain

theorem shape_of_form? {ks : List Kind} {form : Form} (h : form? ks = some form) :
    Shape (8 * ks.length + 30) ks form := by
  generalize hf : 8 * ks.length + 30 = f
  simp only [form?, hf] at h
  split at h
  all_goals
    split_ifs at h with hif
    cases h
  · obtain ⟨e, he, hend⟩ := (Option.any_eq_true _ _).mp hif
    exact .decorator he (List.isEmpty_iff.mp hend)
  · obtain ⟨hk, hif⟩ := Bool.and_eq_true_iff.mp hif
    obtain ⟨ps, hps, hend⟩ := (Option.any_eq_true _ _).mp hif
    obtain ⟨hclose, hresult⟩ := Bool.and_eq_true_iff.mp hend
    exact .function hk hps hclose hresult
  · obtain ⟨rest, hrest, hend⟩ := (Option.any_eq_true _ _).mp hif
    exact .subclass hrest hend
  · exact .baseless hif
  · obtain ⟨e, he, hend⟩ := (Option.any_eq_true _ _).mp hif
    exact .condition he hend
  · obtain ⟨e, he, hend⟩ := (Option.any_eq_true _ _).mp hif
    exact .branch he hend
  · exact .last hif
  · obtain ⟨e, he, hend⟩ := (Option.any_eq_true _ _).mp hif
    exact .whileLoop he hend
  · obtain ⟨mid, hmid, hend⟩ := (Option.any_eq_true _ _).mp hif
    obtain ⟨hin, hend⟩ := Bool.and_eq_true_iff.mp hend
    obtain ⟨e, he, hend⟩ := (Option.any_eq_true _ _).mp hend
    exact .forLoop hmid hin he hend
  · exact .attempt hif
  · obtain ⟨hstarts, hend⟩ := Bool.and_eq_true_iff.mp hif
    exact .rescue hstarts hend
  · obtain ⟨rest, hrest, hend⟩ := (Option.any_eq_true _ _).mp hif
    exact .plain (List.isEmpty_iff.mp hend ▸ hrest)

end Phrase

/-! ## Lines that follow each other -/

/-- What the last line of a block was, which decides what may follow it. -/
inductive Slot where
  /-- The block has no line yet. -/
  | fresh
  | plain
  | decorated
  | condition
  | loop
  | attempt
  | rescue
deriving DecidableEq, Repr

namespace Slot

/-- The block may end. -/
def isClosed : Slot → Bool
  | .fresh => false
  | .decorated => false
  | .attempt => false
  | _ => true

/-- The slot behind a line that starts a statement. -/
def start? : Form → Option Slot
  | .plain => some .plain
  | .decorator => some .decorated
  | .definition => some .plain
  | .condition => some .condition
  | .loop => some .loop
  | .attempt => some .attempt
  | _ => none

/-- The slot behind a line of a form, if the line has its place here. -/
def after? : Slot → Form → Option Slot
  | .condition, .branch => some .condition
  | .condition, .last => some .plain
  | .loop, .last => some .plain
  | .rescue, .last => some .plain
  | .rescue, .rescue => some .rescue
  | .attempt, .rescue => some .rescue
  | .attempt, _ => none
  | .decorated, .decorator => some .decorated
  | .decorated, .definition => some .plain
  | .decorated, _ => none
  | _, form => start? form

end Slot

end FlowMachine.Module
