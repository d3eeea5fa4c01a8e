import FlowMachine.Proofs.Module.Pieces
import FlowMachine.Proofs.Emit.Values

/-!
# Lines of templates

A line of a template is a sequence of pieces: characters that are known, and texts of which only the
kind is known. What reading its pieces leads to can be computed, and it is what reading the line
leads to, whatever the texts are.
-/
namespace FlowMachine.Module

open Text Emit

/-- A piece of a line: characters that are known, or a text of which its kind is known. -/
inductive Piece where
  | chars (cs : List Char)
  /-- A word that no reserved word starts with. -/
  | word
  /-- A name that is no reserved word. -/
  | name
  /-- A text that stands for itself in texts and comments. -/
  | tame
  | doc
  | comment
  | literal
  | number
  /-- Data in brackets. -/
  | data

namespace Piece

open Scan

/-- The text of a piece. -/
inductive Covers : Piece → List Char → Prop where
  | chars (cs : List Char) : Covers (.chars cs) cs
  | word {cs : List Char} (h : IsWord cs) (hopen : isOpen cs = false) : Covers .word cs
  | name {cs : List Char} (h : IsWord cs) (hkeyword : String.ofList cs ∉ keywords)
      (hmatch : String.ofList cs ≠ "match") :
    Covers .name cs
  | tame {cs : List Char} (h : ∀ c ∈ cs, isTame c = true) : Covers .tame cs
  | doc {s : String} (h : NulFree s) : Covers .doc (Emit.doc s).toList
  | comment {s : String} (h : NulFree s) : Covers .comment (Emit.comment s).toList
  | literal (s : String) : Covers .literal (Text.literal s).toList
  | number (n : Nat) : Covers .number (toString n).toList
  | data {cs : List Char} (h : Writes [] IsDisplay cs) : Covers .data cs

def isComment : Mode → Bool
  | .comment _ => true
  | _ => false

/-- What reading the piece leads to. -/
def run (S : Scan) : Piece → Option Scan
  | .chars cs => S.run cs
  | .word =>
    if S.mode == .name || isLoose S.mode then some S
    else (settled S).bind fun S => if S.mode == .inner then some { S with mode := .name } else none
  | .name =>
    if S.mode == .inner then some { S with mode := .behind .name }
      else if isLoose S.mode then some S else none
  | .tame => if isLoose S.mode then some S else none
  | .doc => if S.mode == .long '"' then some { S with mode := .text '"' } else none
  | .comment => if isComment S.mode then some S else none
  | .literal => (settled S).bind fun S =>
    if S.mode == .inner then some { S with mode := .behind .string } else none
  | .number => if S.mode == .inner then some { S with mode := .behind .number } else none
  | .data => if S.mode == .inner then some { S with mode := .behind .display } else none

theorem leads_of_covers {S T : Scan} {piece : Piece} {cs : List Char} (h : piece.Covers cs)
    (hrun : piece.run S = some T) :
    S.Leads T cs := by
  cases h with
  | chars => exact leads_of_run hrun
  | word h hopen =>
    simp only [run] at hrun
    split_ifs at hrun with hother
    · cases hrun
      rcases Bool.or_eq_true_iff.mp hother with hname | hloose
      · exact leads_name (eq_of_beq hname) h.chars
      · exact leads_of_isTame hloose fun c hc => isTame_of_isNameChar (h.chars c hc)
    · obtain ⟨S₁, hsettled, hrun⟩ := Option.bind_eq_some_iff.mp hrun
      split_ifs at hrun with hinner
      cases hrun
      obtain ⟨c, cs, rfl, hc⟩ := h.start
      exact leads_of_settled hsettled (eq_of_beq hinner)
        (by simp [hc]) (leads_word (eq_of_beq hinner) h hopen)
  | name h hkeyword hmatch =>
    simp only [run] at hrun
    split_ifs at hrun with hinner hloose
    · cases hrun
      exact leads_plain (eq_of_beq hinner) h hkeyword hmatch
    · cases hrun
      exact leads_of_isTame hloose fun c hc => isTame_of_isNameChar (h.chars c hc)
  | tame h =>
    simp only [run] at hrun
    split_ifs at hrun with hloose
    cases hrun
    exact leads_of_isTame hloose h
  | doc h =>
    simp only [run] at hrun
    split_ifs at hrun with hlong
    cases hrun
    exact leads_doc (eq_of_beq hlong) h
  | comment h =>
    simp only [run] at hrun
    split_ifs at hrun with hcomment
    cases hrun
    refine leads_of_run (run_of_step fun c hc => ⟨isClear_of_mem_comment h hc, ?_⟩)
    have hc := isLineEnd_of_mem_comment hc
    simp only [Literal.isLineEnd, Bool.or_eq_false_iff, beq_eq_false_iff_ne] at hc
    obtain ⟨mode, brackets, indents, slots, headed, line⟩ := S
    cases mode with
    | comment own => simp [step, hc]
    | _ => cases hcomment
  | literal s =>
    obtain ⟨S₁, hsettled, hrun⟩ := Option.bind_eq_some_iff.mp hrun
    split_ifs at hrun with hinner
    cases hrun
    have hliteral := leads_literal (eq_of_beq hinner) s
    obtain ⟨q, body, heq, hq⟩ := exists_toList_literal s
    rw [heq] at hliteral ⊢
    exact leads_of_settled hsettled (eq_of_beq hinner) (by simp [hq]) hliteral
  | number n =>
    simp only [run] at hrun
    split_ifs at hrun with hinner
    cases hrun
    rw [Nat.toString_eq_repr, Nat.toList_repr]
    exact leads_number (eq_of_beq hinner) n
  | data h =>
    simp only [run] at hrun
    split_ifs at hrun with hinner
    cases hrun
    exact leads_data (eq_of_beq hinner) h

/-- What reading pieces leads to. -/
def runAll (S : Scan) : List Piece → Option Scan
  | [] => some S
  | piece :: pieces => (run S piece).bind (runAll · pieces)

end Piece

/-- The pieces of a text. -/
inductive Composed : String → List Piece → Prop where
  | append {a b : String} {xs ys : List Piece} (ha : Composed a xs)
      (hb : Composed b ys) : Composed (a ++ b) (xs ++ ys)
  | chars (cs : List Char) : Composed (String.ofList cs) [.chars cs]
  | piece {piece : Piece} {s : String} (h : piece.Covers s.toList) : Composed s [piece]

/-- The pieces of lines, each with its end. -/
inductive Outlined : List String → List Piece → Prop where
  | nil : Outlined [] []
  | cons {line : String} {lines : List String} {xs ys : List Piece} (hline : Composed line xs)
      (hlines : Outlined lines ys) :
    Outlined (line :: lines) (xs ++ .chars ['\n'] :: ys)
  /-- Data over several lines. -/
  | table {line front opening opened closing : String} {rows back : List String}
      {xs ys : List Piece}
    (hline : line = front ++ opening) (hopened : opened = opening ++ "\n")
      (hfront : Composed front xs)
    (hdata : Writes [] IsDisplay (opened ++ document rows ++ closing).toList)
      (hback : Outlined back ys) :
    Outlined (line :: (rows ++ closing :: back)) (xs ++ .data :: .chars ['\n'] :: ys)

theorem composed_doc {s : String} (h : NulFree s) : Composed (doc s) [.doc] := .piece (.doc h)

theorem composed_comment {s : String} (h : NulFree s) : Composed (comment s) [.comment] :=
  .piece (.comment h)

theorem composed_literal (s : String) : Composed (literal s) [.literal] := .piece (.literal s)

theorem composed_number (n : Nat) : Composed (toString n) [.number] := .piece (.number n)

theorem composed_listOf (items : List String) : Composed (listOf items) [.data] :=
  .piece (.data (writes_listOf items))

theorem composed_tupleOf (items : List String) : Composed (tupleOf items) [.data] :=
  .piece (.data (writes_tupleOf items))

namespace Scan

variable {S T U : Scan} {xs ys : List Piece} {lines : List String}

theorem leads_append_pieces {cs ds : List Char}
    (hcs : ∀ {S T : Scan}, Piece.runAll S xs = some T → S.Leads T cs)
    (hds : ∀ {S T : Scan}, Piece.runAll S ys = some T → S.Leads T ds)
    (h : Piece.runAll S (xs ++ ys) = some T) :
    S.Leads T (cs ++ ds) := by
  have hsplit : ∀ (xs : List Piece) (S : Scan),
      Piece.runAll S (xs ++ ys) = (Piece.runAll S xs).bind (Piece.runAll · ys) := by
    intro xs
    induction xs with
    | nil => exact fun S => rfl
    | cons x xs ih =>
      intro S
      rw [List.cons_append, Piece.runAll, Piece.runAll, Option.bind_assoc]
      exact congrArg _ (funext ih)
  rw [hsplit] at h
  obtain ⟨S₁, hfront, hback⟩ := Option.bind_eq_some_iff.mp h
  exact (hcs hfront).append (hds hback)

theorem leads_of_composed {s : String} (h : Composed s xs) (hrun : Piece.runAll S xs = some T) :
    S.Leads T s.toList := by
  induction h generalizing S T with
  | append _ _ iha ihb =>
    rw [String.toList_append]
    exact leads_append_pieces iha ihb hrun
  | chars cs =>
    obtain ⟨S₁, hfront, hback⟩ := Option.bind_eq_some_iff.mp hrun
    cases hback
    rw [String.toList_ofList]
    exact leads_of_run hfront
  | piece h =>
    obtain ⟨S₁, hfront, hback⟩ := Option.bind_eq_some_iff.mp hrun
    cases hback
    exact Piece.leads_of_covers h hfront

/-- Reading the lines leads from a state to another. -/
def Passes (S T : Scan) (lines : List String) : Prop := S.Leads T (document lines).toList

theorem passes_of_outlined (h : Outlined lines xs) (hrun : Piece.runAll S xs = some T) :
    S.Passes T lines := by
  induction h generalizing S T with
  | nil =>
    cases hrun
    exact .refl S
  | cons hline _ ih =>
    rw [Passes, document_cons, String.toList_append, String.toList_append, List.append_assoc]
    refine leads_append_pieces (leads_of_composed hline) (fun hrun => ?_) hrun
    obtain ⟨S₁, hfront, hback⟩ := Option.bind_eq_some_iff.mp hrun
    exact (leads_of_run hfront).append (ih hback)
  | @table line front opening opened closing rows back xs ys hline hopened hfront hdata _ ih =>
    have htext : document (line :: (rows ++ closing :: back)) =
        front ++ ((opened ++ document rows ++ closing) ++ ("\n" ++ document back)) := by
      simp [hline, hopened, document_append, String.append_assoc]
    have hsplit (data rest : String) : (front ++ (data ++ ("\n" ++ rest))).toList =
        front.toList ++ (data.toList ++ ("\n".toList ++ rest.toList)) := by
      rw [String.toList_append, String.toList_append, String.toList_append]
    rw [Passes, htext, hsplit]
    refine leads_append_pieces (leads_of_composed hfront) (fun hrun => ?_) hrun
    obtain ⟨S₁, hfront, hrun⟩ := Option.bind_eq_some_iff.mp hrun
    obtain ⟨S₂, hbreak, hback⟩ := Option.bind_eq_some_iff.mp hrun
    exact (Piece.leads_of_covers (.data hdata) hfront).append
      ((leads_of_run hbreak).append (ih hback))

theorem Passes.append {front back : List String} (hfront : S.Passes T front)
    (hback : T.Passes U back) :
    S.Passes U (front ++ back) := by
  rw [Passes, document_append, String.toList_append]
  exact Leads.append hfront hback

/-- Lines that lead back to the state in front of them. -/
theorem Passes.stay {front back : List String} (hfront : S.Passes S front)
    (hback : S.Passes S back) :
    S.Passes S (front ++ back) :=
  hfront.append hback

theorem passes_nil (S : Scan) : S.Passes S [] := .refl S

theorem passes_flatMap {α : Type} {f : α → List String} {xs : List α}
    (h : ∀ x ∈ xs, S.Passes S (f x)) :
    S.Passes S (xs.flatMap f) := by
  induction xs with
  | nil => exact passes_nil S
  | cons x xs ih =>
    rw [List.flatMap_cons]
    exact (h x List.mem_cons_self).append (ih fun y hy => h y (List.mem_cons_of_mem _ hy))

theorem passes_map {α : Type} {f : α → String} {xs : List α} (h : ∀ x ∈ xs, S.Passes S [f x]) :
    S.Passes S (xs.map f) := by
  rw [List.map_eq_flatMap]
  exact passes_flatMap h

theorem passes_ite {c : Prop} [Decidable c] {front back : List String}
    (hfront : c → S.Passes T front)
    (hback : ¬ c → S.Passes T back) : S.Passes T (if c then front else back) := by
  split_ifs with hc
  · exact hfront hc
  · exact hback hc

end Scan

end FlowMachine.Module
