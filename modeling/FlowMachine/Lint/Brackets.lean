/-!
# Balanced brackets

Brackets of three kinds have to nest. Text between quotes and between pipes does not count; a pipe
inside quotes opens nothing, nor does a quote between pipes.
-/
namespace FlowMachine.Lint

/-- The bracket that closes an opening one. -/
def closerOf? : Char → Option Char
  | '[' => some ']'
  | '(' => some ')'
  | '{' => some '}'
  | _ => none

def isCloser (c : Char) : Bool := c == ']' || c == ')' || c == '}'

/-- The rest of a text closes what is open: `stack` holds the closing brackets that are due, the
next one first. -/
def balancedFrom (piped quoted : Bool) (stack : List Char) : List Char → Bool
  | [] => stack.isEmpty && !quoted
  | c :: cs =>
    if c == '"' && !piped then balancedFrom piped (!quoted) stack cs
    else if c == '|' && !quoted then balancedFrom (!piped) quoted stack cs
    else if piped || quoted then balancedFrom piped quoted stack cs
    else
      match closerOf? c with
      | some closer => balancedFrom piped quoted (closer :: stack) cs
      | none =>
        if isCloser c then
          match stack with
          | [] => false
          | due :: rest => due == c && balancedFrom piped quoted rest cs
        else balancedFrom piped quoted stack cs

/-- The brackets of a text nest. -/
def balanced (cs : List Char) : Bool := balancedFrom false false [] cs

end FlowMachine.Lint
