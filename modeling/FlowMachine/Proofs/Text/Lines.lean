import FlowMachine.Text.Lines
import Mathlib.Data.List.Range

/-!
# Lines and their breaks

A text is its lines with their breaks behind them, where the last line may have none. Lines can be
rewritten under their breaks: as long as a rewritten line holds no break and none becomes empty, the
breaks stay what they are and the rewritten text has exactly the rewritten lines.
-/
namespace FlowMachine.Text

/-- No character ends the line. -/
def Unbroken (line : List Char) : Prop := ∀ c ∈ line, isBreak c = false

/-- The lines of a text with the breaks behind them. -/
def brokenLines : List Char → List (List Char × List Char)
  | [] => []
  | '\r' :: '\n' :: cs => ([], ['\r', '\n']) :: brokenLines cs
  | c :: cs =>
    if isBreak c then ([], [c]) :: brokenLines cs
    else
      match brokenLines cs with
      | [] => [([c], [])]
      | (line, ending) :: rest => (c :: line, ending) :: rest

/-- The text of lines with breaks. -/
def joinBroken (ls : List (List Char × List Char)) : List Char := ls.flatMap fun l => l.1 ++ l.2

/-- Rewrites lines, which keep their breaks; `n` is the number of the first line. -/
def editFrom (f : Nat → List Char → List Char) (n : Nat) :
    List (List Char × List Char) → List (List Char × List Char)
  | [] => []
  | (line, ending) :: rest => (f n line, ending) :: editFrom f (n + 1) rest

/-- Rewrites the lines of a text by their numbers, counted from one. -/
def editLines (f : Nat → List Char → List Char) (cs : List Char) : List Char :=
  joinBroken (editFrom f 1 (brokenLines cs))

/-- A break as it stands in front of a text. A carriage return alone is one only when no line feed
follows. -/
def Ends (ending cs : List Char) : Prop :=
  ending = ['\r', '\n'] ∨ ∃ c, ending = [c] ∧ isBreak c = true ∧ (c = '\r' → cs.head? ≠ some '\n')

/-- Lines and breaks into which a text falls. -/
inductive Broken : List (List Char × List Char) → Prop
  | nil : Broken []
  | last {line : List Char} : line ≠ [] → Unbroken line → Broken [(line, [])]
  | cons {line ending : List Char} {rest : List (List Char × List Char)} :
    Unbroken line → Ends ending (joinBroken rest) → Broken rest → Broken ((line, ending) :: rest)

@[simp] theorem joinBroken_nil : joinBroken [] = [] := rfl

@[simp] theorem joinBroken_cons (line ending : List Char) (rest : List (List Char × List Char)) :
    joinBroken ((line, ending) :: rest) = line ++ (ending ++ joinBroken rest) := by
  simp [joinBroken]

theorem joinBroken_brokenLines (cs : List Char) : joinBroken (brokenLines cs) = cs := by
  fun_induction brokenLines cs with
  | case1 => rfl
  | case2 cs ih => rw [joinBroken_cons, ih]; rfl
  | case3 c cs _ _ ih => rw [joinBroken_cons, ih]; rfl
  | case4 c cs _ _ hnil ih =>
    rw [hnil] at ih
    rw [← ih]
    rfl
  | case5 c cs _ _ line ending rest hcons ih =>
    rw [hcons, joinBroken_cons] at ih
    rw [joinBroken_cons, List.cons_append, ih]

theorem broken_brokenLines (cs : List Char) : Broken (brokenLines cs) := by
  fun_induction brokenLines cs with
  | case1 => exact .nil
  | case2 cs ih => exact .cons (by simp [Unbroken]) (.inl rfl) ih
  | case3 c cs hpair hc ih =>
    refine .cons (by simp [Unbroken]) (.inr ⟨c, rfl, hc, ?_⟩) ih
    rintro rfl hfeed
    rw [joinBroken_brokenLines] at hfeed
    obtain ⟨rest, rfl⟩ := List.head?_eq_some_iff.mp hfeed
    exact hpair rest rfl rfl
  | case4 c cs _ hc hnil ih => exact .last (by simp) (by simpa [Unbroken] using hc)
  | case5 c cs _ hc line ending rest hcons ih =>
    have hline {line : List Char} (h : Unbroken line) : Unbroken (c :: line) := by
      refine List.forall_mem_cons.mpr ⟨?_, h⟩
      simpa using hc
    rw [hcons] at ih
    cases ih with
    | last _ h => exact .last (by simp) (hline h)
    | cons h hends hrest => exact .cons (hline h) hends hrest

/-! ## The lines of joined lines -/

theorem lines_cons_of_not_break {c : Char} (h : isBreak c = false) (cs : List Char) :
    lines (c :: cs) = consLine c (lines cs) := by
  rw [lines]
  · simp [h]
  · rintro rest rfl -
    exact absurd h (by decide)

theorem lines_append_of_ends {ending cs : List Char} (h : Ends ending cs) :
    lines (ending ++ cs) = [] :: lines cs := by
  obtain rfl | ⟨c, rfl, hc, hpair⟩ := h
  · rfl
  · rw [List.singleton_append, lines]
    · simp [hc]
    · rintro rest rfl rfl
      exact hpair rfl rfl

theorem lines_append_of_unbroken {line : List Char} (h : Unbroken line) {cs : List Char}
    {first : List Char} {rest : List (List Char)} (hcs : lines cs = first :: rest) :
    lines (line ++ cs) = (line ++ first) :: rest := by
  induction line with
  | nil => exact hcs
  | cons c line ih =>
    obtain ⟨hc, hline⟩ := List.forall_mem_cons.mp h
    rw [List.cons_append, lines_cons_of_not_break hc, ih hline]
    rfl

theorem lines_of_unbroken {line : List Char} (h : Unbroken line) (hsome : line ≠ []) :
    lines line = [line] := by
  induction line with
  | nil => exact absurd rfl hsome
  | cons c line ih =>
    obtain ⟨hc, hline⟩ := List.forall_mem_cons.mp h
    rw [lines_cons_of_not_break hc]
    cases line with
    | nil => rfl
    | cons d line => rw [ih hline (by simp), consLine]

theorem lines_joinBroken {ls : List (List Char × List Char)} (h : Broken ls) :
    lines (joinBroken ls) = ls.map Prod.fst := by
  induction h with
  | nil => rfl
  | last hsome hline => simpa using lines_of_unbroken hline hsome
  | cons hline hends _ ih =>
    rw [joinBroken_cons, lines_append_of_unbroken hline (lines_append_of_ends hends), ih,
      List.append_nil]
    rfl

theorem map_fst_brokenLines (cs : List Char) : (brokenLines cs).map Prod.fst = lines cs := by
  rw [← lines_joinBroken (broken_brokenLines cs), joinBroken_brokenLines]

/-! ## Rewriting lines -/

/-- A rewritten line is free of breaks, and it is empty only where nothing is rewritten. -/
def Tame (f : Nat → List Char → List Char) : Prop :=
  ∀ n line, Unbroken line → Unbroken (f n line) ∧ (f n line = line ∨ f n line ≠ [])

variable {f : Nat → List Char → List Char}

/-- No line feed comes to the front by rewriting, so that a carriage return stays a break of its
own. -/
theorem head?_editFrom (hf : Tame f) (n : Nat) {ls : List (List Char × List Char)} (h : Broken ls)
    (hhead : (joinBroken ls).head? ≠ some '\n') :
    (joinBroken (editFrom f n ls)).head? ≠ some '\n' := by
  have hchanged {line ending : List Char} {rest more : List (List Char × List Char)}
      (hline : Unbroken line) (hends : line ++ ending ≠ [])
      (hhead : (joinBroken ((line, ending) :: rest)).head? ≠ some '\n') :
      (joinBroken ((f n line, ending) :: more)).head? ≠ some '\n' := by
    obtain ⟨hunbroken, hsame | hsome⟩ := hf n line hline
    · obtain ⟨c, cs, hcs⟩ := List.exists_cons_of_ne_nil hends
      rw [joinBroken_cons, ← List.append_assoc, hcs] at hhead
      rwa [hsame, joinBroken_cons, ← List.append_assoc, hcs]
    · obtain ⟨c, cs, hcs⟩ := List.exists_cons_of_ne_nil hsome
      have hc := hunbroken c (by simp [hcs])
      rw [joinBroken_cons, hcs, List.cons_append, List.head?_cons]
      rintro heq
      obtain rfl := Option.some.inj heq
      exact absurd hc (by decide)
  cases h with
  | nil => exact hhead
  | last hsome hline => exact hchanged hline (by simpa using hsome) hhead
  | cons hline hends _ =>
    refine hchanged hline ?_ hhead
    obtain rfl | ⟨c, rfl, -⟩ := hends <;> simp

theorem broken_editFrom (hf : Tame f) (n : Nat) {ls : List (List Char × List Char)}
    (h : Broken ls) :
    Broken (editFrom f n ls) := by
  induction h generalizing n with
  | nil => exact .nil
  | @last line hsome hline =>
    obtain ⟨hunbroken, hsame | hstill⟩ := hf n line hline
    · exact .last (by rwa [hsame]) hunbroken
    · exact .last hstill hunbroken
  | @cons line ending rest hline hends hrest ih =>
    refine .cons (hf n line hline).1 ?_ (ih (n + 1))
    obtain rfl | ⟨c, rfl, hc, hpair⟩ := hends
    · exact .inl rfl
    · exact .inr ⟨c, rfl, hc, fun hreturn => head?_editFrom hf (n + 1) hrest (hpair hreturn)⟩

theorem numberFrom_editFrom (n : Nat) (ls : List (List Char × List Char)) :
    numberFrom n ((editFrom f n ls).map Prod.fst) =
      (numberFrom n (ls.map Prod.fst)).map fun l => (l.1, f l.1 l.2) := by
  induction ls generalizing n with
  | nil => rfl
  | cons l rest ih => simp [editFrom, numberFrom, ih]

/-- The rewritten text has the rewritten lines and no others. -/
theorem numberedLines_editLines (hf : Tame f) (cs : List Char) :
    numberedLines (editLines f cs) = (numberedLines cs).map fun l => (l.1, f l.1 l.2) := by
  have hbroken := broken_editFrom hf 1 (broken_brokenLines cs)
  rw [numberedLines, editLines, lines_joinBroken hbroken, numberFrom_editFrom, map_fst_brokenLines]
  rfl

/-! ## Numbers of lines -/

theorem map_fst_numberFrom (n : Nat) (ls : List (List Char)) :
    (numberFrom n ls).map Prod.fst = List.range' n ls.length := by
  induction ls generalizing n with
  | nil => rfl
  | cons line rest ih => simp [numberFrom, ih, List.range'_succ]

theorem nodup_numberedLines (cs : List Char) : ((numberedLines cs).map Prod.fst).Nodup := by
  rw [numberedLines, map_fst_numberFrom]
  exact List.nodup_range'

theorem length_numberedLines (cs : List Char) : (numberedLines cs).length = (lines cs).length := by
  rw [← List.length_map Prod.fst, numberedLines, map_fst_numberFrom, List.length_range']

end FlowMachine.Text
