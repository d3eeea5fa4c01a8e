/-!
# Reachability

States that can be reached by following links, found by a breadth-first search.
-/
namespace FlowMachine

/-- Takes states from the queue and appends what they link to and was not seen before. Every step
takes one state, so the fuel bounds the states that are visited. -/
def visit (next : String → List String) : Nat → List String → List String → List String
  | 0, _, seen => seen
  | _ + 1, [], seen => seen
  | fuel + 1, s :: queue, seen =>
    let fresh := (next s).eraseDups.filter (!seen.contains ·)
    visit next fuel (queue ++ fresh) (seen ++ fresh)

/-- The states that can be reached from a start, where `links` is a bound on the number of links. -/
def reachable (next : String → List String) (links : Nat) (start : String) : List String :=
  visit next (links + 1) [start] [start]

end FlowMachine
