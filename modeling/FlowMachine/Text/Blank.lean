import FlowMachine.Text.Intervals

/-!
# Blanks

White space is a fixed set of 29 characters. Trimming removes it from the ends of a text, and words
are what stands between it.
-/
namespace FlowMachine.Text

/-- The white-space characters. -/
def blankIntervals : Intervals :=
  [(0x09, 0x0D), (0x1C, 0x20), (0x85, 0x85), (0xA0, 0xA0), (0x1680, 0x1680), (0x2000, 0x200A),
   (0x2028, 0x2029), (0x202F, 0x202F), (0x205F, 0x205F), (0x3000, 0x3000)]

def isBlank (c : Char) : Bool := blankIntervals.holds c.toNat

/-- Drops the longest end of the list on which `p` holds throughout. -/
def dropEndWhile (p : Char → Bool) (cs : List Char) : List Char :=
  (cs.reverse.dropWhile p).reverse

/-- Keeps the longest end of the list on which `p` holds throughout. -/
def takeEndWhile (p : Char → Bool) (cs : List Char) : List Char :=
  (cs.reverse.takeWhile p).reverse

def trimStart (cs : List Char) : List Char := cs.dropWhile isBlank

def trimEnd (cs : List Char) : List Char := dropEndWhile isBlank cs

def trim (cs : List Char) : List Char := trimEnd (trimStart cs)

/-- The pieces between separators; neighbouring separators have an empty piece between them. -/
def splitWhere (p : Char → Bool) : List Char → List (List Char)
  | [] => [[]]
  | c :: cs =>
    if p c then [] :: splitWhere p cs
    else
      match splitWhere p cs with
      | [] => [[c]]
      | piece :: pieces => (c :: piece) :: pieces

/-- The non-empty pieces between separators. -/
def piecesWhere (p : Char → Bool) (cs : List Char) : List (List Char) :=
  (splitWhere p cs).filter (!·.isEmpty)

/-- The words of a text: what stands between blanks. -/
def words (cs : List Char) : List (List Char) := piecesWhere isBlank cs

/-- Splits a trimmed text before its last word, if anything stands before it. -/
def splitLastWord? (cs : List Char) : Option (List Char × List Char) :=
  let last := takeEndWhile (!isBlank ·) cs
  let front := trimEnd (dropEndWhile (!isBlank ·) cs)
  if front.isEmpty || last.isEmpty then none else some (front, last)

/-- A character other than a blank is kept by trimming at either end. -/
theorem trimStart_cons {c : Char} (cs : List Char) (h : isBlank c = false) :
    trimStart (c :: cs) = c :: cs := by
  simp [trimStart, h]

end FlowMachine.Text
