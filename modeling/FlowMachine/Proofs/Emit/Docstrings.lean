import FlowMachine.Emit.Layout
import FlowMachine.Module.Token
import Mathlib.Tactic.SplitIfs

/-!
# Text inside docstrings

The inside of a docstring is read unit by unit: a backslash takes the next character with it, and
three quotes at the start of a unit close it. A text that is written into a docstring is read in
whole, whatever stands behind it, as long as that is no quote, which could make up three with the
quotes at the end of the text. Each of its characters is what one of the units stands for.
-/
namespace FlowMachine.Emit

open FlowMachine.Module

/-! ## Reading -/

/-- The units of the inside of a docstring, up to the quotes that close it. -/
def units : List Char → List (List Char)
  | [] => []
  | '"' :: '"' :: '"' :: _ => []
  | '\\' :: c :: cs => ['\\', c] :: units cs
  | c :: cs => [c] :: units cs

/-- The character that a unit stands for. No other escapes are decoded than those of backslashes and
quotes. -/
def meaning? : List Char → Option Char
  | ['\\', '\\'] => some '\\'
  | ['\\', '"'] => some '"'
  | '\\' :: _ => none
  | [c] => some c
  | _ => none

theorem units_cons {c : Char} {cs : List Char} (hslash : c ≠ '\\')
    (hopen : ¬ ['"', '"', '"'] <+: c :: cs) :
    units (c :: cs) = [c] :: units cs := by
  rw [units.eq_def]
  split <;> simp_all

theorem not_three_quotes {c : Char} {cs : List Char}
    (h : ∀ rest, c = '"' → cs = '"' :: '"' :: rest → False) :
    ¬ ['"', '"', '"'] <+: c :: cs := by
  rintro ⟨rest, hrest⟩
  obtain ⟨rfl, rfl⟩ := List.cons.inj hrest
  exact h rest rfl rfl

/-- The reader of tokens passes over a unit, and counts the line that it may end. -/
theorem skipLong_unit {cs unit : List Char} {rest : List (List Char)}
    (h : units cs = unit :: rest) :
    ∃ behind, cs = unit ++ behind ∧ units behind = rest ∧
      ∀ breaks, skipLong '"' breaks cs = skipLong '"' (breaks + unit.count '\n') behind := by
  revert h
  fun_cases units cs with
  | case1 => simp
  | case2 => simp
  | case3 c cs =>
    intro h
    obtain ⟨rfl, rfl⟩ := List.cons.inj h
    refine ⟨cs, rfl, rfl, fun breaks => ?_⟩
    by_cases hbreak : c = '\n' <;> simp [skipLong, hbreak]
  | case4 c cs hopen hpair =>
    intro h
    obtain ⟨rfl, rfl⟩ := List.cons.inj h
    refine ⟨cs, rfl, rfl, fun breaks => ?_⟩
    have hnot : ¬ (c == '"' && ['"', '"'].isPrefixOf cs) = true := by
      rw [Bool.and_eq_true, beq_iff_eq, List.isPrefixOf_iff_prefix]
      rintro ⟨rfl, htwo⟩
      exact not_three_quotes hopen (List.cons_prefix_cons.mpr ⟨rfl, htwo⟩)
    rw [skipLong, if_neg hnot]
    · by_cases hbreak : c = '\n' <;> simp [hbreak]
    · exact hpair

/-- The reader of tokens passes over the units of a docstring, and counts the lines that they
end. -/
theorem skipLong_of_units {read : List (List Char)} {u : List Char}
    (h : units (read.flatten ++ u) = read ++ units u) (breaks : Nat) :
    skipLong '"' breaks (read.flatten ++ u) =
      skipLong '"' (breaks + read.flatten.count '\n') u := by
  induction read generalizing breaks with
  | nil => rfl
  | cons unit rest ih =>
    obtain ⟨behind, hbehind, hrest, hskip⟩ := skipLong_unit h
    rw [List.flatten_cons, List.append_assoc, List.append_cancel_left_eq] at hbehind
    subst hbehind
    rw [hskip, ih hrest, List.flatten_cons, List.count_append, Nat.add_assoc]

/-! ## Writing -/

theorem doubleBackslashes_cons (c : Char) (cs : List Char) :
    doubleBackslashes (c :: cs) = (if c = '\\' then ['\\', '\\'] else [c]) ++
      doubleBackslashes cs := by
  simp [doubleBackslashes]

theorem shieldQuotes_cons {c : Char} {cs : List Char} (h : ¬ ['"', '"', '"'] <+: c :: cs) :
    shieldQuotes (c :: cs) = c :: shieldQuotes cs := by
  rw [shieldQuotes.eq_def]
  split <;> simp_all

/-- Where quotes in front of what is written are those in front of the text, so are three of
them. -/
theorem three_quotes_of {write : List Char → List Char} (hwrite : ∀ {quotes cs : List Char},
      '"' :: quotes <+: write cs → ∃ rest, cs = '"' :: rest ∧ quotes <+: write rest)
    {c : Char} {cs : List Char} (h : ['"', '"', '"'] <+: c :: write cs) :
    ['"', '"', '"'] <+: c :: cs := by
  obtain ⟨rfl, htwo⟩ := List.cons_prefix_cons.mp h
  obtain ⟨rest, rfl, hone⟩ := hwrite htwo
  obtain ⟨behind, rfl, -⟩ := hwrite hone
  exact ⟨behind, rfl⟩

/-- Quotes in front of a text with doubled backslashes are those in front of the text. -/
theorem of_quote_doubleBackslashes {quotes cs : List Char}
    (h : '"' :: quotes <+: doubleBackslashes cs) :
    ∃ rest, cs = '"' :: rest ∧ quotes <+: doubleBackslashes rest := by
  cases cs with
  | nil => simp [doubleBackslashes] at h
  | cons c cs =>
    rw [doubleBackslashes_cons] at h
    split_ifs at h with hslash
    · exact absurd (List.cons_prefix_cons.mp h).1 (by decide)
    · obtain ⟨rfl, hquotes⟩ := List.cons_prefix_cons.mp h
      exact ⟨cs, rfl, hquotes⟩

theorem docChars_quotes (cs : List Char) :
    docChars ('"' :: '"' :: '"' :: cs) = ['\\', '"', '\\', '"', '\\', '"'] ++ docChars cs := rfl

theorem docChars_cons {c : Char} {cs : List Char} (h : ¬ ['"', '"', '"'] <+: c :: cs) :
    docChars (c :: cs) = (if c = '\\' then ['\\', '\\'] else [c]) ++ docChars cs := by
  rw [docChars, doubleBackslashes_cons]
  split_ifs with hslash
  · simp [shieldQuotes_cons, docChars]
  · have hopen : ¬ ['"', '"', '"'] <+: c :: doubleBackslashes cs := fun hthree =>
      h (three_quotes_of of_quote_doubleBackslashes hthree)
    rw [List.singleton_append, shieldQuotes_cons hopen]
    rfl

/-- The units that a text is written in. -/
def writtenUnits : List Char → List (List Char)
  | [] => []
  | '"' :: '"' :: '"' :: cs => ['\\', '"'] :: ['\\', '"'] :: ['\\', '"'] :: writtenUnits cs
  | c :: cs => (if c = '\\' then ['\\', '\\'] else [c]) :: writtenUnits cs

theorem mapM_meaning?_writtenUnits (cs : List Char) :
    (writtenUnits cs).mapM meaning? = some cs := by
  fun_induction writtenUnits cs with
  | case1 => rfl
  | case2 cs ih => simp [ih, meaning?]
  | case3 c cs _ ih =>
    by_cases hslash : c = '\\'
    · simp [hslash, ih, meaning?]
    · simp [hslash, ih, meaning?]

theorem flatten_writtenUnits (cs : List Char) : (writtenUnits cs).flatten = docChars cs := by
  fun_induction writtenUnits cs with
  | case1 => rfl
  | case2 cs ih => simp [ih, docChars_quotes]
  | case3 c cs hopen ih =>
    rw [List.flatten_cons, ih, docChars_cons (not_three_quotes hopen)]

/-- Quotes in front of a written text and what stands behind it are those in front of the text. -/
theorem of_quote_docChars {quotes cs u : List Char} (hu : u.head? ≠ some '"')
    (h : '"' :: quotes <+: docChars cs ++ u) :
    ∃ rest, cs = '"' :: rest ∧ quotes <+: docChars rest ++ u := by
  cases cs with
  | nil =>
    obtain ⟨rest, rfl⟩ := h
    simp at hu
  | cons c cs =>
    by_cases hopen : ['"', '"', '"'] <+: c :: cs
    · obtain ⟨rest, hrest⟩ := hopen
      rw [← hrest] at h
      exact absurd (List.cons_prefix_cons.mp h).1 (by decide)
    · rw [docChars_cons hopen] at h
      split_ifs at h with hslash
      · exact absurd (List.cons_prefix_cons.mp h).1 (by decide)
      · obtain ⟨rfl, hquotes⟩ := List.cons_prefix_cons.mp h
        exact ⟨cs, rfl, hquotes⟩

theorem units_docChars {u : List Char} (hu : u.head? ≠ some '"') (cs : List Char) :
    units (docChars cs ++ u) = writtenUnits cs ++ units u := by
  fun_induction writtenUnits cs with
  | case1 => rfl
  | case2 cs ih => simp [docChars_quotes, units, ih]
  | case3 c cs hopen ih =>
    rw [docChars_cons (not_three_quotes hopen)]
    by_cases hslash : c = '\\'
    · simp [hslash, units, ih]
    · have hread : ¬ ['"', '"', '"'] <+: c :: (docChars cs ++ u) := fun hthree =>
        not_three_quotes hopen (three_quotes_of (of_quote_docChars hu) hthree)
      rw [if_neg hslash, List.singleton_append, List.cons_append, units_cons hslash hread, ih]
      rfl

/-- A text inside a docstring is read in whole, and as what it was written from: no quotes close the
docstring before what stands behind the text, so the reader of tokens goes on there. -/
theorem units_doc (s : String) {u : List Char} (hu : u.head? ≠ some '"') :
    ∃ read, read.flatten = (doc s).toList ∧ read.mapM meaning? = some s.toList ∧
      units ((doc s).toList ++ u) = read ++ units u ∧
      ∀ breaks, skipLong '"' breaks ((doc s).toList ++ u) =
        skipLong '"' (breaks + (doc s).toList.count '\n') u := by
  have hwritten : (doc s).toList = (writtenUnits s.toList).flatten := by
    rw [doc, String.toList_ofList, flatten_writtenUnits]
  have hunits : units ((writtenUnits s.toList).flatten ++ u) = writtenUnits s.toList ++
      units u := by
    rw [flatten_writtenUnits, units_docChars hu]
  rw [hwritten]
  exact ⟨_, rfl, mapM_meaning?_writtenUnits _, hunits, skipLong_of_units hunits⟩

/-- A backslash in front of four quotes, and two quotes at the end. -/
def quoteMix : String := "\\\"\"\"\"a\"\""

theorem units_doc_quoteMix : "\n\"\"\"".toList.head? ≠ some '"' ∧
    (doc quoteMix).toList = "\\\\\\\"\\\"\\\"\"a\"\"".toList ∧
    ∃ read, read.flatten = (doc quoteMix).toList ∧ read.mapM meaning? = some quoteMix.toList ∧
      units ((doc quoteMix).toList ++ "\n\"\"\"".toList) = read ++ units "\n\"\"\"".toList ∧
      ∀ breaks, skipLong '"' breaks ((doc quoteMix).toList ++ "\n\"\"\"".toList) =
        skipLong '"' (breaks + (doc quoteMix).toList.count '\n') "\n\"\"\"".toList :=
  ⟨by decide, by decide, units_doc quoteMix (by decide)⟩

end FlowMachine.Emit
