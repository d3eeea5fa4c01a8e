import FlowMachine.Text.Blank

/-!
# Patterns for names

In a pattern an asterisk stands for any characters, a question mark for any one, and brackets for
one of a set, which an exclamation mark in front turns into one outside of it. A bracket that is not
closed stands for itself.
-/
namespace FlowMachine.Wildcard

/-- One part of a pattern. -/
inductive Mark where
  | many
  | any
  | this (c : Char)
  | among (ranges : List (Char × Char))
  | outside (ranges : List (Char × Char))
deriving DecidableEq, Repr

/-- Reads a set behind its opening bracket: what it holds and what stands behind it. The first
character of a set may be a closing bracket. -/
def readSet? (cs : List Char) : Option (List Char × List Char) :=
  let bang := if cs.head? == some '!' then 1 else 0
  let lead := bang + if (cs.drop bang).head? == some ']' then 1 else 0
  match (cs.drop lead).dropWhile (· != ']') with
  | [] => none
  | _ :: rest => some (cs.take lead ++ (cs.drop lead).takeWhile (· != ']'), rest)

theorem length_lt_of_readSet? {cs set rest : List Char} (h : readSet? cs = some (set, rest)) :
    rest.length < cs.length := by
  simp only [readSet?] at h
  generalize (if cs.head? == some '!' then 1 else 0) = bang at h
  generalize hlead : (bang + if (cs.drop bang).head? == some ']' then 1 else 0) = lead at h
  split at h
  · contradiction
  · rename_i c tail hdrop
    have hsuffix : (c :: tail) <:+ cs.drop lead := hdrop ▸ List.dropWhile_suffix _
    have hlength := hsuffix.length_le
    simp only [Option.some.injEq, Prod.mk.injEq] at h
    obtain ⟨-, rfl⟩ := h
    simp only [List.length_cons, List.length_drop] at hlength
    omega

/-- Cuts a set at the hyphens that join ranges: those with at least `keep` characters in front, and
two in front of each further one. -/
def chunks (keep : Nat) : List Char → List (List Char)
  | [] => [[]]
  | c :: cs =>
    if c == '-' && keep == 0 then [] :: chunks 2 cs
    else
      match chunks (keep - 1) cs with
      | [] => [[c]]
      | chunk :: rest => (c :: chunk) :: rest

/-- A hyphen at the end joins nothing and is a character of the set. -/
def closeLast : List (List Char) → List (List Char)
  | [] => []
  | [chunk, []] => [chunk ++ ['-']]
  | chunk :: rest => chunk :: closeLast rest

/-- Drops the ranges that are empty. -/
def dropEmpty : List (List Char) → List (List Char)
  | [] => []
  | chunk :: rest =>
    match dropEmpty rest with
    | [] => [chunk]
    | next :: more =>
      match chunk.getLast?, next with
      | some a, b :: tail =>
        if b < a then (chunk.dropLast ++ tail) :: more else chunk :: next :: more
      | _, _ => chunk :: next :: more

/-- The ranges of a set; a single character is a range of one. -/
def ranges : List (List Char) → List (Char × Char)
  | [] => []
  | chunk :: rest =>
    chunk.map (fun c => (c, c)) ++
      (match chunk.getLast?, rest.head?.bind List.head? with
      | some a, some b => [(a, b)]
      | _, _ => []) ++
      ranges rest

/-- What a set stands for. An empty set holds nothing, and outside of it is everything. -/
def ofSet (set : List Char) : Mark :=
  let keep := if set.head? == some '!' then 2 else 1
  match dropEmpty (closeLast (chunks keep set)) with
  | ['!'] :: [] => .any
  | ('!' :: chunk) :: rest => .outside (ranges (chunk :: rest))
  | parts => .among (ranges parts)

/-- Reads a pattern. -/
def read (cs : List Char) : List Mark :=
  match cs with
  | [] => []
  | '*' :: rest => .many :: read rest
  | '?' :: rest => .any :: read rest
  | '[' :: rest =>
    match h : readSet? rest with
    | some (set, behind) =>
      have : behind.length < rest.length := length_lt_of_readSet? h
      ofSet set :: read behind
    | none => .this '[' :: read rest
  | c :: rest => .this c :: read rest
termination_by cs.length

def inRanges (ranges : List (Char × Char)) (c : Char) : Bool :=
  ranges.any fun r => decide (r.1 ≤ c) && decide (c ≤ r.2)

def Mark.admits (m : Mark) (c : Char) : Bool :=
  match m with
  | .many => true
  | .any => true
  | .this d => c == d
  | .among ranges => inRanges ranges c
  | .outside ranges => !inRanges ranges c

/-- The ends of a text, from the whole to the empty one. -/
def ends : List Char → List (List Char)
  | [] => [[]]
  | c :: cs => (c :: cs) :: ends cs

/-- A whole name fits a pattern. -/
def fits : List Mark → List Char → Bool
  | [], cs => cs.isEmpty
  | .many :: ms, cs => (ends cs).any (fits ms)
  | m :: ms, cs =>
    match cs with
    | [] => false
    | c :: rest => m.admits c && fits ms rest

/-- The text has a character that makes it a pattern. -/
def isPattern (cs : List Char) : Bool := cs.any fun c => c == '*' || c == '?' || c == '['

end FlowMachine.Wildcard
