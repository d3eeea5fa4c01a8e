import FlowMachine.Proofs.Identifier.Display
import FlowMachine.Proofs.Text.Pieces
import Mathlib.Data.Bool.AllAny

/-!
# Texts without null characters

Joining texts, writing numbers and changing the case of characters brings no null character into a
text, and so the name that is shown for another one has none if that has none.
-/
namespace FlowMachine

open FlowMachine.Text

/-- No null character is in the text. -/
def NulFree (s : String) : Prop := Char.ofNat 0 ∉ s.toList

instance (s : String) : Decidable (NulFree s) :=
  inferInstanceAs (Decidable (Char.ofNat 0 ∉ s.toList))

@[simp]
theorem nulFree_append {s t : String} : NulFree (s ++ t) ↔ NulFree s ∧ NulFree t := by
  simp [NulFree]

theorem nulFree_toString (n : Nat) : NulFree (toString n) := by
  rw [NulFree, Nat.toString_eq_repr, Nat.toList_repr]
  exact fun hmem => absurd (Nat.isDigit_of_mem_toDigits (by decide) (by decide) hmem) (by decide)

/-! ## Case forms -/

namespace Text

/-- No run of the tables of case forms leads to the null character, or to a number of no
character. -/
theorem runs_valid : ∀ r ∈ upperRuns ++ lowerRuns, 0 < r.image ∧
    (r.image + (r.last - r.first) < 0xD800 ∨ 0xDFFF < r.image ∧
    r.image + (r.last - r.first) < 0x110000) := by
  decide +kernel

theorem expansions_valid : ∀ entry ∈ upperExpansions, ∀ n ∈ entry.2,
    Char.ofNat n ≠ Char.ofNat 0 := by
  decide

theorem ofNat_imageOf_ne {runs : List CaseRun} (hruns : runs ⊆ upperRuns ++ lowerRuns) {c : Char}
    (hc : c ≠ Char.ofNat 0) :
    Char.ofNat (CaseRun.imageOf runs c.toNat) ≠ Char.ofNat 0 := by
  unfold CaseRun.imageOf
  split
  · rename_i r hr
    obtain ⟨hpositive, hvalid⟩ := runs_valid r (hruns (List.mem_of_find?_eq_some hr))
    have hrun := List.find?_some hr
    simp only [Bool.and_eq_true, decide_eq_true_eq] at hrun
    have hchar : (r.image + (c.toNat - r.first)).isValidChar := by
      unfold Nat.isValidChar
      omega
    intro hnul
    rw [Char.ofNat, dif_pos hchar] at hnul
    have hzero : r.image + (c.toNat - r.first) = 0 := congrArg Char.toNat hnul
    omega
  · rwa [Char.ofNat_toNat]

theorem upperChar_ne {c u : Char} (hc : c ≠ Char.ofNat 0) (hu : u ∈ upperChar c) :
    u ≠ Char.ofNat 0 := by
  unfold upperChar at hu
  split_ifs at hu with hascii
  · rw [List.mem_singleton.mp hu]
    exact forall_ascii (P := fun c => c ≠ Char.ofNat 0 → c.toUpper ≠ Char.ofNat 0)
      (by decide) hascii hc
  · split at hu
    · rename_i image himage
      obtain ⟨before, after, htable, -⟩ := List.lookup_eq_some_iff.mp himage
      obtain ⟨n, hn, rfl⟩ := List.mem_map.mp hu
      exact expansions_valid (c.toNat, image) (by simp [htable]) n hn
    · rw [List.mem_singleton.mp hu]
      exact ofNat_imageOf_ne (List.subset_append_left _ _) hc

theorem lowerChar_ne {c u : Char} (hc : c ≠ Char.ofNat 0) (hu : u ∈ lowerChar c) :
    u ≠ Char.ofNat 0 := by
  unfold lowerChar at hu
  split_ifs at hu with hascii hdotted
  · rw [List.mem_singleton.mp hu]
    exact forall_ascii (P := fun c => c ≠ Char.ofNat 0 → c.toLower ≠ Char.ofNat 0)
      (by decide) hascii hc
  · exact List.all_iff_forall_prop.mp
      (by decide : (['i', Char.ofNat 0x307].all fun u => u ≠ Char.ofNat 0) = true) u hu
  · rw [List.mem_singleton.mp hu]
    exact ofNat_imageOf_ne (List.subset_append_right _ _) hc

theorem lowerAfter_ne {seen cs : List Char} (hcs : ∀ c ∈ cs, c ≠ Char.ofNat 0) :
    ∀ u ∈ lowerAfter seen cs, u ≠ Char.ofNat 0 := by
  induction cs generalizing seen with
  | nil => nofun
  | cons c cs ih =>
    obtain ⟨hc, hcs⟩ := List.forall_mem_cons.mp hcs
    rw [lowerAfter]
    refine List.forall_mem_append.mpr ⟨fun u hu => ?_, ih hcs⟩
    split_ifs at hu
    · rw [List.mem_singleton.mp hu]
      decide
    · rw [List.mem_singleton.mp hu]
      decide
    · exact lowerChar_ne hc hu

end Text

theorem nulFree_displayName {name : String} (h : NulFree name) :
    NulFree (Identifier.displayName name) := by
  rw [NulFree, Identifier.displayName_eq, String.toList_ofList]
  intro hmem
  rcases mem_joinChars hmem with hblank | ⟨word, hword, hmem⟩
  · exact absurd (List.mem_singleton.mp hblank) (by decide)
  obtain ⟨piece, hpiece, rfl⟩ := List.mem_map.mp hword
  have hchars : ∀ c ∈ piece, c ≠ Char.ofNat 0 := fun c hc heq =>
    h (heq ▸ mem_of_mem_splitWhere (List.mem_filter.mp hpiece).1 hc)
  rcases List.mem_append.mp hmem with hmem | hmem
  · obtain ⟨c, hc, hu⟩ := List.mem_flatMap.mp hmem
    exact upperChar_ne (hchars c (List.mem_of_mem_take hc)) hu rfl
  · exact lowerAfter_ne (fun c hc => hchars c (List.mem_of_mem_drop hc)) _ hmem rfl

end FlowMachine
