/-!
# Finding one text in another
-/
namespace FlowMachine.Text

/-- What stands behind a mark at the front of a list. -/
def behind? [BEq α] : List α → List α → Option (List α)
  | [], cs => some cs
  | _ :: _, [] => none
  | m :: ms, c :: cs => if m == c then behind? ms cs else none

theorem behind?_eq_some_iff [BEq α] [LawfulBEq α] {mark cs rest : List α} :
    behind? mark cs = some rest ↔ cs = mark ++ rest := by
  induction mark generalizing cs with
  | nil => simp [behind?]
  | cons m ms ih =>
    cases cs with
    | nil => simp [behind?]
    | cons c cs =>
      by_cases h : m = c
      · simp [behind?, h, ih]
      · simp [behind?, h, Ne.symm h]

/-- Cuts a text around the first occurrence of a mark: what stands before it and what stands
after it. -/
def cutAt? (mark : List Char) : List Char → Option (List Char × List Char)
  | [] => if mark.isEmpty then some ([], []) else none
  | c :: cs =>
    match behind? mark (c :: cs) with
    | some rest => some ([], rest)
    | none => (cutAt? mark cs).map fun cut => (c :: cut.1, cut.2)

/-- The mark occurs in the text. -/
def occurs (mark cs : List Char) : Bool := (cutAt? mark cs).isSome

/-- The mark occurs in the text. -/
def within (mark text : String) : Bool := occurs mark.toList text.toList

/-- Replaces the occurrences of a non-empty mark from left to right, after passing over `skip`
characters that belong to the previous occurrence. -/
def replaceFrom (mark new : List Char) : Nat → List Char → List Char
  | _, [] => []
  | skip + 1, _ :: cs => replaceFrom mark new skip cs
  | 0, c :: cs =>
    if mark.isPrefixOf (c :: cs) then new ++ replaceFrom mark new (mark.length - 1) cs
    else c :: replaceFrom mark new 0 cs

/-- Replaces the occurrences of a non-empty mark from left to right. -/
def replaceAll (mark new cs : List Char) : List Char := replaceFrom mark new 0 cs

/-- The text without the given end, if it has it. -/
def stripEnd? (ending cs : List Char) : Option (List Char) :=
  (behind? ending.reverse cs.reverse).map List.reverse

/-- Puts a separator between texts. -/
def joinChars (sep : List Char) : List (List Char) → List Char
  | [] => []
  | [cs] => cs
  | cs :: rest => cs ++ sep ++ joinChars sep rest

/-- The first `n` characters of a text. -/
def takeText (n : Nat) (s : String) : String := String.ofList (s.toList.take n)

end FlowMachine.Text
