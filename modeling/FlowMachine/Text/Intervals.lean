/-!
# Tables of code points

A property of characters is given by the closed intervals of code points that have it.
-/
namespace FlowMachine.Text

/-- Closed intervals of code points, in increasing order. -/
abbrev Intervals := List (Nat × Nat)

/-- Some interval of the table holds the code point. -/
def Intervals.holds (table : Intervals) (n : Nat) : Bool :=
  table.any fun i => decide (i.1 ≤ n) && decide (n ≤ i.2)

end FlowMachine.Text
