import FlowMachine.Identifier
import FlowMachine.Proofs.Text.Marks
import FlowMachine.Proofs.Text.Pieces

/-!
# Blank display names

A display name shows nothing exactly when its words are nothing but joints. Every word shows
something, as no character that can be seen has a blank as its upper-case form; that is checked on
the case tables.
-/
namespace FlowMachine

open FlowMachine.Text

namespace Text

theorem piecesWhere_eq_nil_iff {p : Char → Bool} {cs : List Char} :
    piecesWhere p cs = [] ↔ ∀ c ∈ cs, p c = true := by
  have hflat : (piecesWhere p cs).flatten = cs.filter (!p ·) := by
    rw [piecesWhere, List.flatten_filter_not_isEmpty, flatten_splitWhere]
  constructor
  · intro hnil c hc
    rw [hnil] at hflat
    simpa using List.filter_eq_nil_iff.mp hflat.symm c hc
  · intro hall
    have hnone : cs.filter (!p ·) = [] := List.filter_eq_nil_iff.mpr fun c hc => by simp [hall c hc]
    rw [hnone, List.flatten_eq_nil_iff] at hflat
    exact List.eq_nil_iff_forall_not_mem.mpr fun piece hpiece =>
      (mem_piecesWhere hpiece).1 (hflat piece hpiece)

theorem mem_joinChars_of_mem (sep : List Char) {xs : List (List Char)} {x : List Char} (hx : x ∈ xs)
    {c : Char} (hc : c ∈ x) : c ∈ joinChars sep xs := by
  fun_induction joinChars sep xs with
  | case1 => cases hx
  | case2 cs =>
    rw [List.mem_singleton.mp hx] at hc
    exact hc
  | case3 cs rest hrest ih =>
    rcases List.mem_cons.mp hx with rfl | hx
    · simp [hc]
    · exact List.mem_append_right _ (ih hx)

theorem trim_eq_nil_iff {cs : List Char} : trim cs = [] ↔ IsBlanks cs := by
  constructor
  · intro h
    have hblank : IsBlanks (trimStart cs) := by
      rw [trim, trimEnd, dropEndWhile, List.reverse_eq_nil_iff, List.dropWhile_eq_nil_iff] at h
      exact fun c hc => h c (List.mem_reverse.mpr hc)
    by_contra hshown
    have hsome : trimStart cs ≠ [] := fun hnil => hshown (List.dropWhile_eq_nil_iff.mp hnil)
    have hfirst := hblank _ (List.head_mem hsome)
    have hstop : isBlank ((trimStart cs).head hsome) = false :=
      List.head_dropWhile_not isBlank hsome
    rw [hstop] at hfirst
    cases hfirst
  · intro h
    have hstart : trimStart cs = [] := List.dropWhile_eq_nil_iff.mpr h
    rw [trim, hstart]
    rfl

/-! ## Upper case of what can be seen -/

theorem isBlank_ofNat {n : Nat} (h : isBlank (Char.ofNat n) = true) :
    blankIntervals.holds n = true := by
  by_cases hvalid : n.isValidChar
  · rw [Char.ofNat, dif_pos hvalid] at h
    exact h
  · rw [Char.ofNat, dif_neg hvalid] at h
    exact absurd h (by decide)

/-- No run of the upper-case table leads to a blank. -/
theorem upperRuns_visible : ∀ r ∈ upperRuns, ∀ i ∈ blankIntervals,
    r.image + (r.last - r.first) < i.1 ∨ i.2 < r.image := by
  decide +kernel

theorem upperExpansions_visible : ∀ entry ∈ upperExpansions,
    ∃ n ∈ entry.2, blankIntervals.holds n = false := by
  decide

theorem holds_imageOf_upperRuns {n : Nat} (h : blankIntervals.holds n = false) :
    blankIntervals.holds (CaseRun.imageOf upperRuns n) = false := by
  unfold CaseRun.imageOf
  split
  · rename_i r hr
    have hmem := upperRuns_visible r (List.mem_of_find?_eq_some hr)
    have hrun := List.find?_some hr
    simp only [Bool.and_eq_true, decide_eq_true_eq] at hrun
    refine List.any_eq_false.mpr fun i hi => ?_
    have := hmem i hi
    simp only [Bool.and_eq_true, decide_eq_true_eq]
    omega
  · exact h

/-- The upper-case form of a character that can be seen can be seen. -/
theorem exists_visible_upperChar {c : Char} (h : isBlank c = false) :
    ∃ u ∈ upperChar c, isBlank u = false := by
  have hvisible {n : Nat} (hn : blankIntervals.holds n = false) :
      isBlank (Char.ofNat n) = false := by
    rw [Bool.eq_false_iff]
    intro hblank
    rw [isBlank_ofNat hblank] at hn
    cases hn
  unfold upperChar
  split_ifs with hascii
  · refine ⟨c.toUpper, List.mem_singleton.mpr rfl, ?_⟩
    revert h
    exact forall_ascii (P := fun c => isBlank c = false → isBlank c.toUpper = false) (by decide)
      hascii
  · split
    · rename_i image himage
      obtain ⟨before, after, htable, -⟩ := List.lookup_eq_some_iff.mp himage
      obtain ⟨n, hn, hholds⟩ := upperExpansions_visible (c.toNat, image) (by simp [htable])
      exact ⟨_, List.mem_map_of_mem hn, hvisible hholds⟩
    · exact ⟨_, List.mem_singleton.mpr rfl, hvisible (holds_imageOf_upperRuns h)⟩

end Text

namespace Identifier

/-- Between the words of a name stand hyphens, underscores and blanks. -/
def isJoint (c : Char) : Bool := c == '-' || c == '_' || isBlank c

theorem displayName_eq (name : String) : displayName name =
    String.ofList (joinChars [' '] ((piecesWhere isJoint name.toList).map capitalize)) := rfl

/-- A display name is blank exactly when it is made from joints alone. -/
theorem isBlanks_displayName_iff {name : String} :
    IsBlanks (displayName name).toList ↔ ∀ c ∈ name.toList, isJoint c = true := by
  rw [← piecesWhere_eq_nil_iff, displayName_eq, String.toList_ofList]
  constructor
  · intro h
    refine List.eq_nil_iff_forall_not_mem.mpr fun piece hpiece => ?_
    obtain ⟨hsome, hplain⟩ := mem_piecesWhere hpiece
    obtain ⟨c, rest, rfl⟩ := List.exists_cons_of_ne_nil hsome
    have hshown : isBlank c = false := by
      have hc := hplain c List.mem_cons_self
      simp only [isJoint, Bool.or_eq_false_iff] at hc
      exact hc.2
    obtain ⟨u, hu, hvisible⟩ := exists_visible_upperChar hshown
    have hword : u ∈ capitalize (c :: rest) := by
      simp [capitalize, upperChars, hu]
    have hblank := h u (mem_joinChars_of_mem [' '] (List.mem_map_of_mem hpiece) hword)
    rw [hvisible] at hblank
    cases hblank
  · intro hnone
    rw [hnone]
    simp [IsBlanks, joinChars]

end Identifier

end FlowMachine
