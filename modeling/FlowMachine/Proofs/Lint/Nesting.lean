import FlowMachine.Lint.Brackets
import Mathlib.Tactic.SplitIfs

/-!
# Nested brackets

Quotes and pipes cover parts of a text. What is left nests if its brackets are a word of the grammar
that has one rule for each kind of bracket. The check of brackets reads a text once, with the
closing brackets that are due on a stack; it accepts exactly the texts that leave no quote open and
nest where nothing covers them.
-/
namespace FlowMachine.Lint

/-! ## What is covered -/

/-- What covers a place of a text. -/
inductive Cover where
  | bare
  | quoted
  | piped
deriving DecidableEq, Repr

/-- What covers the place behind a character. A pipe between quotes and a quote between pipes are
like any other character. -/
def Cover.behind : Cover → Char → Cover
  | .bare, c => if c = '"' then .quoted else if c = '|' then .piped else .bare
  | .quoted, c => if c = '"' then .bare else .quoted
  | .piped, c => if c = '|' then .bare else .piped

/-- What covers the end of a text. -/
def Cover.atEnd (cover : Cover) (cs : List Char) : Cover := cs.foldl Cover.behind cover

/-- The characters that nothing covers, without the quotes and pipes that open and close what is
covered. -/
def bareChars : Cover → List Char → List Char
  | _, [] => []
  | cover, c :: cs =>
    if cover = .bare ∧ cover.behind c = .bare then c :: bareChars .bare cs
    else bareChars (cover.behind c) cs

def isBracket (c : Char) : Bool := ['(', ')', '[', ']', '{', '}'].contains c

/-- The brackets that nothing covers. -/
def bareBrackets (cover : Cover) (cs : List Char) : List Char :=
  (bareChars cover cs).filter isBracket

/-! ## The grammar -/

/-- Words of brackets that nest. -/
inductive Nested : List Char → Prop
  | nil : Nested []
  | round {inner rest : List Char} : Nested inner → Nested rest →
      Nested ('(' :: (inner ++ ')' :: rest))
  | square {inner rest : List Char} : Nested inner → Nested rest →
      Nested ('[' :: (inner ++ ']' :: rest))
  | curly {inner rest : List Char} : Nested inner → Nested rest →
      Nested ('{' :: (inner ++ '}' :: rest))

theorem closerOf?_eq_some_iff {c due : Char} : closerOf? c = some due ↔
    (c = '(' ∧ due = ')') ∨ (c = '[' ∧ due = ']') ∨ (c = '{' ∧ due = '}') := by
  unfold closerOf?
  split <;> simp_all [eq_comm]

/-- A word that nests starts with an opening bracket, and nests up to the bracket that closes it and
behind. -/
theorem nested_cons_iff {c : Char} {word : List Char} : Nested (c :: word) ↔
    ∃ due inner rest, closerOf? c = some due ∧ word = inner ++ due :: rest ∧ Nested inner ∧
    Nested rest := by
  constructor
  · intro h
    cases h with
    | round hinner hrest => exact ⟨')', _, _, rfl, rfl, hinner, hrest⟩
    | square hinner hrest => exact ⟨']', _, _, rfl, rfl, hinner, hrest⟩
    | curly hinner hrest => exact ⟨'}', _, _, rfl, rfl, hinner, hrest⟩
  · rintro ⟨due, inner, rest, hdue, rfl, hinner, hrest⟩
    obtain ⟨rfl, rfl⟩ | ⟨rfl, rfl⟩ | ⟨rfl, rfl⟩ := closerOf?_eq_some_iff.mp hdue
    · exact .round hinner hrest
    · exact .square hinner hrest
    · exact .curly hinner hrest

theorem isCloser_of_closerOf? {c due : Char} (h : closerOf? c = some due) :
    isCloser due = true := by
  obtain ⟨-, rfl⟩ | ⟨-, rfl⟩ | ⟨-, rfl⟩ := closerOf?_eq_some_iff.mp h <;> rfl

theorem closerOf?_of_isCloser {c : Char} (h : isCloser c = true) : closerOf? c = none := by
  simp only [isCloser, Bool.or_eq_true, beq_iff_eq, or_assoc] at h
  obtain rfl | rfl | rfl := h <;> rfl

theorem isBracket_iff {c : Char} :
    isBracket c = true ↔ (∃ due, closerOf? c = some due) ∨ isCloser c = true := by
  simp only [isBracket, List.contains_iff_mem, List.mem_cons, List.not_mem_nil, or_false,
    closerOf?_eq_some_iff, isCloser, Bool.or_eq_true, beq_iff_eq]
  constructor
  · rintro (rfl | rfl | rfl | rfl | rfl | rfl) <;> simp
  · rintro (⟨due, h⟩ | h)
    · obtain ⟨rfl, -⟩ | ⟨rfl, -⟩ | ⟨rfl, -⟩ := h <;> simp
    · obtain (rfl | rfl) | rfl := h <;> simp

/-! ## Closing what is open -/

/-- A word closes the brackets that are due, the next one first, and nests between them. -/
inductive Closes : List Char → List Char → Prop
  | done {word : List Char} : Nested word → Closes [] word
  | due {c : Char} {stack word rest : List Char} :
    isCloser c = true → Nested word → Closes stack rest → Closes (c :: stack) (word ++ c :: rest)

theorem closes_nil_left {word : List Char} : Closes [] word ↔ Nested word :=
  ⟨fun | .done h => h, .done⟩

theorem closes_cons_left {c : Char} {stack word : List Char} : Closes (c :: stack) word ↔
    isCloser c = true ∧ ∃ front rest, word = front ++ c :: rest ∧ Nested front ∧
    Closes stack rest := by
  constructor
  · intro h
    cases h with
    | due hcloser hfront hrest => exact ⟨hcloser, _, _, rfl, hfront, hrest⟩
  · rintro ⟨hcloser, front, rest, rfl, hfront, hrest⟩
    exact .due hcloser hfront hrest

theorem closes_nil_right {stack : List Char} : Closes stack [] ↔ stack = [] := by
  cases stack with
  | nil => simp [closes_nil_left, Nested.nil]
  | cons c stack => simp [closes_cons_left]

/-- What nests may stand in front of a word. -/
theorem Closes.opener {c due : Char} {stack inner rest : List Char} (hdue : closerOf? c = some due)
    (hinner : Nested inner) (hrest : Closes stack rest) :
    Closes stack (c :: (inner ++ due :: rest)) := by
  cases hrest with
  | done hrest => exact .done (nested_cons_iff.mpr ⟨due, inner, rest, hdue, rfl, hinner, hrest⟩)
  | @due next stack word rest hcloser hword hrest =>
    have hfront : Nested (c :: (inner ++ due :: word)) :=
      nested_cons_iff.mpr ⟨due, inner, word, hdue, rfl, hinner, hword⟩
    simpa using Closes.due hcloser hfront hrest

/-- An opening bracket puts the bracket that closes it in front of what is due. -/
theorem closes_opener {c due : Char} {stack word : List Char} (hdue : closerOf? c = some due) :
    Closes stack (c :: word) ↔ Closes (due :: stack) word := by
  have hcloser := isCloser_of_closerOf? hdue
  constructor
  · intro h
    cases stack with
    | nil =>
      obtain ⟨due', inner, rest, hdue', rfl, hinner, hrest⟩ :=
        nested_cons_iff.mp (closes_nil_left.mp h)
      obtain rfl : due = due' := Option.some.inj (hdue.symm.trans hdue')
      exact .due hcloser hinner (.done hrest)
    | cons next stack =>
      obtain ⟨hnext, front, rest, hword, hfront, hrest⟩ := closes_cons_left.mp h
      cases front with
      | nil =>
        obtain ⟨rfl, -⟩ := List.cons.inj hword
        rw [closerOf?_of_isCloser hnext] at hdue
        cases hdue
      | cons d front =>
        obtain ⟨rfl, rfl⟩ := List.cons.inj hword
        obtain ⟨due', inner, behind, hdue', rfl, hinner, hbehind⟩ := nested_cons_iff.mp hfront
        obtain rfl : due = due' := Option.some.inj (hdue.symm.trans hdue')
        simpa using Closes.due hcloser hinner (.due hnext hbehind hrest)
  · intro h
    obtain ⟨-, inner, rest, rfl, hinner, hrest⟩ := closes_cons_left.mp h
    exact hrest.opener hdue hinner

/-- A closing bracket has to be the next one that is due. -/
theorem closes_closer {c : Char} {stack word : List Char} (hcloser : isCloser c = true) :
    Closes stack (c :: word) ↔ ∃ rest, stack = c :: rest ∧ Closes rest word := by
  -- no word that nests starts with a closing bracket
  have hnot (front : List Char) : ¬ Nested (c :: front) := by
    intro h
    obtain ⟨due, inner, rest, hdue, -⟩ := nested_cons_iff.mp h
    rw [closerOf?_of_isCloser hcloser] at hdue
    cases hdue
  constructor
  · intro h
    cases stack with
    | nil => exact absurd (closes_nil_left.mp h) (hnot word)
    | cons next stack =>
      obtain ⟨-, front, rest, hword, hfront, hrest⟩ := closes_cons_left.mp h
      cases front with
      | nil =>
        obtain ⟨rfl, rfl⟩ := List.cons.inj hword
        exact ⟨stack, rfl, hrest⟩
      | cons d front =>
        obtain ⟨rfl, -⟩ := List.cons.inj hword
        exact absurd hfront (hnot front)
  · rintro ⟨rest, rfl, h⟩
    exact .due hcloser .nil h

/-! ## The check -/

def Cover.isQuoted : Cover → Bool
  | .quoted => true
  | _ => false

def Cover.isPiped : Cover → Bool
  | .piped => true
  | _ => false

theorem Cover.atEnd_cons (cover : Cover) (c : Char) (cs : List Char) :
    cover.atEnd (c :: cs) = (cover.behind c).atEnd cs := rfl

theorem Cover.behind_of_isBracket {c : Char} (h : isBracket c = true) :
    Cover.bare.behind c = .bare := by
  have hquote : c ≠ '"' := by
    rintro rfl
    exact absurd h (by decide)
  have hpipe : c ≠ '|' := by
    rintro rfl
    exact absurd h (by decide)
  simp [Cover.behind, hquote, hpipe]

theorem bareBrackets_bracket {c : Char} (h : isBracket c = true) (cs : List Char) :
    bareBrackets .bare (c :: cs) = c :: bareBrackets .bare cs := by
  simp [bareBrackets, bareChars, Cover.behind_of_isBracket h, h]

section

variable {cover : Cover} {c : Char} (h : ¬ (cover = .bare ∧ isBracket c = true))

include h

theorem bareBrackets_skip (cs : List Char) :
    bareBrackets cover (c :: cs) = bareBrackets (cover.behind c) cs := by
  rw [bareBrackets, bareChars]
  split_ifs with hbare
  · obtain ⟨rfl, hbehind⟩ := hbare
    have hbracket : ¬ isBracket c = true := fun hbracket => h ⟨rfl, hbracket⟩
    rw [List.filter_cons_of_neg hbracket, hbehind, bareBrackets]
  · rfl

/-- A character that is covered or no bracket leaves the stack alone. -/
theorem balancedFrom_skip (stack cs : List Char) :
    balancedFrom cover.isPiped cover.isQuoted stack (c :: cs) =
    balancedFrom (cover.behind c).isPiped (cover.behind c).isQuoted stack cs := by
  cases cover with
  | bare =>
    have hnone : closerOf? c = none ∧ isCloser c = false := by
      simpa [isBracket_iff, Option.eq_none_iff_forall_ne_some] using h
    by_cases hquote : c = '"' <;> by_cases hpipe : c = '|' <;>
      simp_all [balancedFrom, Cover.behind, Cover.isPiped, Cover.isQuoted]
  | quoted =>
    by_cases hquote : c = '"' <;>
      simp [balancedFrom, Cover.behind, Cover.isPiped, Cover.isQuoted, hquote]
  | piped =>
    by_cases hpipe : c = '|' <;>
      simp [balancedFrom, Cover.behind, Cover.isPiped, Cover.isQuoted, hpipe]

end

theorem balancedFrom_opener {c due : Char} (h : closerOf? c = some due) (stack cs : List Char) :
    balancedFrom false false stack (c :: cs) = balancedFrom false false (due :: stack) cs := by
  obtain ⟨rfl, rfl⟩ | ⟨rfl, rfl⟩ | ⟨rfl, rfl⟩ := closerOf?_eq_some_iff.mp h <;> rfl

theorem balancedFrom_closer {c : Char} (h : isCloser c = true) (stack cs : List Char) :
    balancedFrom false false stack (c :: cs) = true ↔
      ∃ rest, stack = c :: rest ∧ balancedFrom false false rest cs = true := by
  have hcases : c = ']' ∨ c = ')' ∨ c = '}' := by simpa [isCloser, or_assoc] using h
  cases stack with
  | nil => rcases hcases with rfl | rfl | rfl <;> simp [balancedFrom, closerOf?, isCloser]
  | cons due stack =>
    have hstep : balancedFrom false false (due :: stack) (c :: cs) =
        (due == c && balancedFrom false false stack cs) := by
      rcases hcases with rfl | rfl | rfl <;> rfl
    rw [hstep, Bool.and_eq_true, beq_iff_eq]
    constructor
    · rintro ⟨rfl, hrest⟩
      exact ⟨stack, rfl, hrest⟩
    · rintro ⟨rest, hstack, hrest⟩
      obtain ⟨rfl, rfl⟩ := List.cons.inj hstack
      exact ⟨rfl, hrest⟩

/-- The rest of a text closes what is due where nothing covers it. -/
theorem balancedFrom_iff (cover : Cover) (stack cs : List Char) :
    balancedFrom cover.isPiped cover.isQuoted stack cs = true ↔
      cover.atEnd cs ≠ .quoted ∧ Closes stack (bareBrackets cover cs) := by
  induction cs generalizing cover stack with
  | nil =>
    cases cover <;>
      simp [balancedFrom, Cover.isQuoted, Cover.atEnd, bareBrackets, bareChars, closes_nil_right]
  | cons c cs ih =>
    by_cases hbracket : cover = .bare ∧ isBracket c = true
    · obtain ⟨rfl, hbracket⟩ := hbracket
      rw [Cover.atEnd_cons, Cover.behind_of_isBracket hbracket, bareBrackets_bracket hbracket]
      rcases isBracket_iff.mp hbracket with ⟨due, hopener⟩ | hcloser
      · rw [closes_opener hopener, ← ih .bare (due :: stack)]
        exact Bool.eq_iff_iff.mp (balancedFrom_opener hopener stack cs)
      · rw [closes_closer hcloser]
        refine (balancedFrom_closer hcloser stack cs).trans ⟨?_, ?_⟩
        · rintro ⟨rest, hstack, h⟩
          obtain ⟨hquote, hcloses⟩ := (ih .bare rest).mp h
          exact ⟨hquote, rest, hstack, hcloses⟩
        · rintro ⟨hquote, rest, hstack, hcloses⟩
          exact ⟨rest, hstack, (ih .bare rest).mpr ⟨hquote, hcloses⟩⟩
    · rw [balancedFrom_skip hbracket, Cover.atEnd_cons, bareBrackets_skip hbracket]
      exact ih (cover.behind c) stack

/-- The brackets of a text nest exactly when no quote is left open and the brackets that neither
quotes nor pipes cover are a word of the grammar. A pipe may be left open. -/
theorem balanced_iff_nested (cs : List Char) :
    balanced cs = true ↔ Cover.bare.atEnd cs ≠ .quoted ∧ Nested (bareBrackets .bare cs) := by
  rw [← closes_nil_left]
  exact balancedFrom_iff .bare [] cs

example : balanced "A[\"(\"] -->|x]| B{y} |(".toList = true := by decide

end FlowMachine.Lint
