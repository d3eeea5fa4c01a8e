import FlowMachine.Text.Blank
import FlowMachine.Text.Search
import Mathlib.Data.List.DropRight

/-!
# Marks and blanks

Where the first character of a mark does not occur, the mark does not start, so a cut passes over
such a text. Blanks around a text are what trimming takes away and nothing else.
-/
namespace FlowMachine.Text

/-- Every character is a blank. -/
def IsBlanks (cs : List Char) : Prop := ∀ c ∈ cs, isBlank c = true

instance : DecidablePred IsBlanks :=
  fun cs => decidable_of_iff (cs.all isBlank = true) List.all_eq_true

theorem cutAt?_cons_of_ne {m c : Char} (ms cs : List Char) (h : c ≠ m) :
    cutAt? (m :: ms) (c :: cs) = (cutAt? (m :: ms) cs).map fun cut => (c :: cut.1, cut.2) := by
  have hnone : behind? (m :: ms) (c :: cs) = none := by simp [behind?, Ne.symm h]
  rw [cutAt?, hnone]

theorem cutAt?_append {m : Char} {front : List Char} (ms cs : List Char) (h : m ∉ front) :
    cutAt? (m :: ms) (front ++ cs) =
      (cutAt? (m :: ms) cs).map fun cut => (front ++ cut.1, cut.2) := by
  induction front with
  | nil => simp
  | cons c front ih =>
    obtain ⟨hc, hfront⟩ := List.ne_and_not_mem_of_not_mem_cons h
    rw [List.cons_append, cutAt?_cons_of_ne ms _ hc.symm, ih hfront, Option.map_map]
    rfl

theorem cutAt?_self (m : Char) (ms cs : List Char) :
    cutAt? (m :: ms) (m :: ms ++ cs) = some ([], cs) := by
  have hhere : behind? (m :: ms) (m :: ms ++ cs) = some cs := behind?_eq_some_iff.mpr rfl
  rw [List.cons_append] at hhere ⊢
  rw [cutAt?, hhere]

/-- The first mark behind a text that it does not start in. -/
theorem cutAt?_mark {m : Char} {front : List Char} (ms cs : List Char) (h : m ∉ front) :
    cutAt? (m :: ms) (front ++ (m :: ms ++ cs)) = some (front, cs) := by
  rw [cutAt?_append ms _ h, cutAt?_self, Option.map_some, List.append_nil]

/-- A cut leaves nothing out. -/
theorem eq_of_cutAt? {mark cs before after : List Char}
    (h : cutAt? mark cs = some (before, after)) :
    cs = before ++ (mark ++ after) := by
  induction cs generalizing before with
  | nil =>
    cases mark with
    | nil =>
      obtain ⟨rfl, rfl⟩ : [] = before ∧ [] = after := by simpa [cutAt?] using h
      rfl
    | cons m ms => simp [cutAt?] at h
  | cons c cs ih =>
    rw [cutAt?] at h
    split at h
    · rename_i rest hbehind
      obtain ⟨rfl, rfl⟩ : [] = before ∧ rest = after := by simpa using h
      rw [List.nil_append]
      exact behind?_eq_some_iff.mp hbehind
    · obtain ⟨cut, hcut, hparts⟩ := Option.map_eq_some_iff.mp h
      obtain ⟨rfl, rfl⟩ := Prod.mk.inj hparts
      rw [List.cons_append, ← ih hcut]

theorem trimStart_append {blanks : List Char} (h : IsBlanks blanks) (cs : List Char) :
    trimStart (blanks ++ cs) = trimStart cs :=
  List.dropWhile_append_of_pos h

theorem trimEnd_append {blanks : List Char} (cs : List Char) (h : IsBlanks blanks) :
    trimEnd (cs ++ blanks) = trimEnd cs := by
  have hback : ∀ c ∈ blanks.reverse, isBlank c = true := fun c hc => h c (List.mem_reverse.mp hc)
  rw [trimEnd, dropEndWhile, List.reverse_append, List.dropWhile_append_of_pos hback]
  rfl

theorem isPrefix_dropEndWhile (p : Char → Bool) (cs : List Char) : dropEndWhile p cs <+: cs := by
  rw [← List.reverse_suffix, dropEndWhile, List.reverse_reverse]
  exact List.dropWhile_suffix p

/-- What stands at the front of a text that starts with no blank starts with none either. -/
theorem trimStart_of_isPrefix {front cs : List Char} (hfront : front <+: cs)
    (hcs : trimStart cs = cs) :
    trimStart front = front := by
  cases front with
  | nil => rfl
  | cons c front =>
    obtain ⟨back, rfl⟩ := hfront
    have hfirst := List.head?_dropWhile_not isBlank (c :: front ++ back)
    rw [← trimStart, hcs] at hfirst
    exact trimStart_cons front hfirst

theorem trimStart_trim (cs : List Char) : trimStart (trim cs) = trim cs :=
  trimStart_of_isPrefix (isPrefix_dropEndWhile isBlank _) (List.dropWhile_idempotent isBlank cs)

theorem trim_trim (cs : List Char) : trim (trim cs) = trim cs := by
  rw [trim, trimStart_trim, trim, trimEnd, trimEnd, dropEndWhile, dropEndWhile,
    List.reverse_reverse, List.dropWhile_idempotent]

theorem trim_pad {lead tail cs : List Char} (hlead : IsBlanks lead) (htail : IsBlanks tail)
    (h : trim cs = cs) : trim (lead ++ (cs ++ tail)) = cs := by
  rw [trim, trimStart_append hlead]
  cases cs with
  | nil =>
    have hnil : trimStart tail = [] := List.dropWhile_eq_nil_iff.mpr htail
    rw [List.nil_append, hnil]
    rfl
  | cons c cs =>
    have hstart := trimStart_trim (c :: cs)
    rw [h] at hstart
    have hc : isBlank c = false := by
      by_contra hblank
      have hlength := (List.dropWhile_sublist (l := cs) isBlank).length_le
      rw [trimStart, List.dropWhile_cons, if_pos (by simpa using hblank)] at hstart
      rw [hstart, List.length_cons] at hlength
      omega
    rw [List.cons_append, trimStart_cons _ hc, ← List.cons_append, trimEnd_append _ htail]
    rw [trim, hstart] at h
    exact h

end FlowMachine.Text
