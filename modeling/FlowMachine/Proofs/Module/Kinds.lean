import FlowMachine.Module.Statement
import Mathlib.Data.List.Nodup

/-!
# Kinds of tokens

A reader of tokens looks at few things of a token: which mark or reserved word it is, or else
whether it is a name, a number or a text. The kinds of the tokens of a line say all that decides how
the line is read. Data in brackets counts as one kind, whatever stands in it.
-/
namespace FlowMachine.Module

/-- The marks and reserved words of the written documents. -/
inductive Sign where
  | openParen | closeParen | openBracket | closeBracket | openBrace | closeBrace
  | comma | colon | dot | equals | arrow | at | star | doubleStar | plus | minus | plusEquals
  | less | greater | atMost | atLeast | same | differs
  | and | or | not | in | is | if | else | elif | for | while | funDef | classDef | return | pass
  | continue | assert | import | from | as | try | except | none | true | false | match
deriving DecidableEq, Repr

namespace Sign

def text : Sign → String
  | .openParen => "(" | .closeParen => ")" | .openBracket => "[" | .closeBracket => "]"
  | .openBrace => "\x7b" | .closeBrace => "\x7d" | .comma => "," | .colon => ":" | .dot => "."
  | .equals => "=" | .arrow => "->" | .at => "@" | .star => "*" | .doubleStar => "**"
  | .plus => "+" | .minus => "-" | .plusEquals => "+=" | .less => "<" | .greater => ">"
  | .atMost => "<=" | .atLeast => ">=" | .same => "==" | .differs => "!="
  | .and => "and" | .or => "or" | .not => "not" | .in => "in" | .is => "is" | .if => "if"
  | .else => "else" | .elif => "elif" | .for => "for" | .while => "while" | .funDef => "def"
  | .classDef => "class" | .return => "return" | .pass => "pass" | .continue => "continue"
  | .assert => "assert" | .import => "import" | .from => "from" | .as => "as" | .try => "try"
  | .except => "except" | .none => "None" | .true => "True" | .false => "False"
  | .match => "match"

def all : List Sign :=
  [.openParen, .closeParen, .openBracket, .closeBracket, .openBrace, .closeBrace, .comma,
   .colon, .dot, .equals, .arrow, .at, .star, .doubleStar, .plus, .minus, .plusEquals, .less,
   .greater, .atMost, .atLeast, .same, .differs, .and, .or, .not, .in, .is, .if, .else, .elif,
   .for, .while, .funDef, .classDef, .return, .pass, .continue, .assert, .import, .from, .as,
   .try, .except, .none, .true, .false, .match]

theorem mem_all (s : Sign) : s ∈ all := by cases s <;> decide

theorem nodup_texts : (all.map text).Nodup := by decide +kernel

theorem text_inj {s t : Sign} : s.text = t.text ↔ s = t :=
  ⟨fun h => List.inj_on_of_nodup_map nodup_texts (mem_all s) (mem_all t) h, congrArg text⟩

/-- The sign is a word: a reserved one, or one that has a meaning at the front of a line only. -/
def isWord (s : Sign) : Bool := keywords.contains s.text || s == .match

def lexeme (s : Sign) : Lexeme := if s.isWord then .name s.text else .mark s.text

/-- The sign opens a bracket. -/
def opens : Sign → Bool
  | .openParen => Bool.true
  | .openBracket => Bool.true
  | .openBrace => Bool.true
  | _ => Bool.false

/-- An expression may start with the sign. -/
def starts : Sign → Bool
  | .openParen => Bool.true
  | .openBracket => Bool.true
  | .openBrace => Bool.true
  | .plus => Bool.true
  | .minus => Bool.true
  | .not => Bool.true
  | .none => Bool.true
  | .true => Bool.true
  | .false => Bool.true
  | .match => Bool.true
  | _ => Bool.false

end Sign

/-- Marks and words that readers look for and that no document has. -/
def absentWords : List String :=
  ["lambda", "await", "yield", "async", "raise", "global", "nonlocal", "del", "with", "finally",
   "break", ":=", ";", "~", "...", "/", "//", "%", "<<", ">>", "&", "|", "^", "-=", "*=", "/=",
   "//=", "%=", "@=", "**=", "<<=", ">>=", "&=", "|=", "^="]

/-- The word is a name, and none that readers look for. -/
def IsPlain (word : String) : Prop :=
  word ∉ keywords ∧ word ∉ absentWords ∧ word ∉ Sign.all.map Sign.text

inductive Kind where
  | sign (s : Sign)
  | name
  | number
  | string
  /-- Data in brackets. -/
  | display
deriving DecidableEq, Repr

/-- The expression is not starred. -/
def Expr.IsBare : Expr → Prop
  | .starred _ _ => False
  | _ => True

/-- Tokens from an opening bracket to its closing one that are read as one operand, whatever
follows. -/
structure IsDisplay (us : List Token) : Prop where
  front : ∃ s : Sign, s.opens ∧ ∃ line level rest, us = ⟨.mark s.text, line, level⟩ :: rest
  reads : ∀ fuel, 8 * us.length ≤ fuel → ∀ rest, ∃ e,
    atom fuel true (us ++ rest) = .ok (e, rest) ∧ e.IsBare

/-- Tokens of given kinds, then the end of the line, and then `zs`. -/
inductive Spells (zs : List Token) : List Kind → List Token → Prop where
  | nil (line level : Nat) : Spells zs [] (⟨.newline, line, level⟩ :: zs)
  | sign {ks ts} (s : Sign) (line level : Nat) : Spells zs ks ts →
      Spells zs (.sign s :: ks) (⟨s.lexeme, line, level⟩ :: ts)
  | name {ks ts} (word : String) (line level : Nat) (h : IsPlain word) :
    Spells zs ks ts → Spells zs (.name :: ks) (⟨.name word, line, level⟩ :: ts)
  | number {ks ts} (line level : Nat) : Spells zs ks ts →
      Spells zs (.number :: ks) (⟨.number, line, level⟩ :: ts)
  | string {ks ts} (formatted : Bool) (line level : Nat) :
    Spells zs ks ts → Spells zs (.string :: ks) (⟨.string Bool.false formatted, line, level⟩ :: ts)
  | display {ks ts} {us : List Token} (h : IsDisplay us) : Spells zs ks ts →
      Spells zs (.display :: ks) (us ++ ts)

/-- The sign stands at the front. -/
def isAt (s : Sign) : List Kind → Bool
  | .sign t :: _ => s == t
  | _ => false

/-- An expression may start at the front. -/
def starts : List Kind → Bool
  | .sign s :: _ => s.starts
  | [] => false
  | _ => true

namespace Spells

variable {zs ts : List Token} {ks : List Kind}

theorem frontIs_lexeme (s : Sign) (word : String) (line level : Nat) (ts : List Token) :
    frontIs word (⟨s.lexeme, line, level⟩ :: ts) = (s.text == word) := by
  unfold Sign.lexeme
  split <;> rfl

/-- Which sign stands at the front. An opening bracket can be the front of data as well. -/
theorem frontIs_eq (h : Spells zs ks ts) {s : Sign}
    (hs : s.opens = false ∨ ∀ rest, ks ≠ .display :: rest) :
    frontIs s.text ts = isAt s ks := by
  cases h with
  | nil => rfl
  | sign t line level h =>
    rw [frontIs_lexeme, isAt, Bool.eq_iff_iff, beq_iff_eq, beq_iff_eq, Sign.text_inj, eq_comm]
  | name word line level h _ =>
    have : word ≠ s.text := fun heq => h.2.2 (heq ▸ List.mem_map_of_mem (Sign.mem_all s))
    simpa [frontIs, isAt] using this
  | number => rfl
  | string => rfl
  | display h _ =>
    obtain ⟨t, ht, line, level, rest, rfl⟩ := h.front
    have hs : s.opens = false := by simpa using hs
    have : t.text ≠ s.text := fun heq => by rw [Sign.text_inj.mp heq, hs] at ht; cases ht
    simpa [frontIs, isAt] using this

theorem frontIs_sign (h : Spells zs ks ts) (s : Sign) (hs : s.opens = false) :
    frontIs s.text ts = isAt s ks := h.frontIs_eq (.inl hs)

/-- The front of a line is none of the words that no document has. -/
theorem frontIs_absent (h : Spells zs ks ts) {word : String} (hword : word ∈ absentWords) :
    frontIs word ts = false := by
  have habsent : ∀ s ∈ Sign.all, ∀ word ∈ absentWords, s.text ≠ word := by decide +kernel
  cases h with
  | nil => rfl
  | sign t line level h =>
    rw [frontIs_lexeme]
    simpa using habsent t (Sign.mem_all t) word hword
  | name other line level h _ =>
    have : other ≠ word := fun heq => h.2.1 (heq ▸ hword)
    simpa [frontIs] using this
  | number => rfl
  | string => rfl
  | display h _ =>
    obtain ⟨t, -, line, level, rest, rfl⟩ := h.front
    simpa [frontIs] using habsent t (Sign.mem_all t) word hword

/-- Of a token only the lexeme tells whether an expression starts with it. -/
theorem startsExpression_cons (lexeme : Lexeme) (line level : Nat) (ts : List Token) :
    startsExpression (⟨lexeme, line, level⟩ :: ts) = startsExpression [⟨lexeme, 0, 0⟩] := by
  cases lexeme <;> rfl

theorem startsExpression_eq (h : Spells zs ks ts) : startsExpression ts = starts ks := by
  have hsigns : ∀ s ∈ Sign.all, startsExpression [⟨s.lexeme, 0, 0⟩] = s.starts := by
    decide +kernel
  have hopeners : ∀ s ∈ Sign.all, s.opens → startsExpression [⟨.mark s.text, 0, 0⟩] := by
    decide +kernel
  cases h with
  | nil => rfl
  | sign s line level h =>
    rw [startsExpression_cons, hsigns s (Sign.mem_all s)]
    rfl
  | name other line level h _ => simp [startsExpression, starts, h.1]
  | number => rfl
  | string => rfl
  | display h _ =>
    obtain ⟨s, hs, line, level, rest, rfl⟩ := h.front
    rw [List.cons_append, startsExpression_cons, hopeners s (Sign.mem_all s) hs]
    rfl

end Spells

end FlowMachine.Module
