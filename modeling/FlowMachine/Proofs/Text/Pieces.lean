import FlowMachine.Text.Blank
import FlowMachine.Text.Search
import Mathlib.Tactic.SplitIfs

/-!
# Pieces of texts and their characters

Splitting leaves no separator in a piece, joining adds none but the one it is given, and trimming
adds nothing at all. Facts about single letters and digits are checked on the 128 characters of
ASCII.
-/
namespace FlowMachine.Text

/-- A property of ASCII characters can be checked one by one. -/
theorem forall_ascii {P : Char → Prop} (h : ∀ n : Fin 128, P (Char.ofNat n)) {c : Char}
    (hc : c.toNat < 128) : P c := by
  have := h ⟨c.toNat, hc⟩
  rwa [Char.ofNat_toNat] at this

theorem isAlphanum_iff {c : Char} : c.isAlphanum = true ↔
    (65 ≤ c.toNat ∧ c.toNat ≤ 90 ∨ 97 ≤ c.toNat ∧ c.toNat ≤ 122) ∨ 48 ≤ c.toNat ∧ c.toNat ≤ 57 := by
  have hupper : c.isUpper = true ↔ 65 ≤ c.toNat ∧ c.toNat ≤ 90 := by
    show decide (c.val ≥ 65 ∧ c.val ≤ 90) = true ↔ _
    simp [UInt32.le_iff_toNat_le]
  have hlower : c.isLower = true ↔ 97 ≤ c.toNat ∧ c.toNat ≤ 122 := by
    show (decide (c.val ≥ 97) && decide (c.val ≤ 122)) = true ↔ _
    simp [UInt32.le_iff_toNat_le]
  have hdigit : c.isDigit = true ↔ 48 ≤ c.toNat ∧ c.toNat ≤ 57 := by
    show (decide (c.val ≥ 48) && decide (c.val ≤ 57)) = true ↔ _
    simp [UInt32.le_iff_toNat_le]
  show ((c.isUpper || c.isLower) || c.isDigit) = true ↔ _
  rw [Bool.or_eq_true, Bool.or_eq_true, hupper, hlower, hdigit]

/-- A letter becomes a small letter, and a digit stays. -/
theorem isLower_or_isDigit_toLower {c : Char} (h : c.isAlphanum = true) :
    c.toLower.isLower = true ∨ c.toLower.isDigit = true := by
  have hc : c.toNat < 128 := by
    have := isAlphanum_iff.mp h
    omega
  revert h
  exact forall_ascii (P := fun c => c.isAlphanum = true →
    c.toLower.isLower = true ∨ c.toLower.isDigit = true) (by decide +kernel) hc

theorem not_mem_of_mem_splitWhere {p : Char → Bool} {cs piece : List Char}
    (h : piece ∈ splitWhere p cs) : ∀ c ∈ piece, p c = false := by
  induction cs generalizing piece with
  | nil => simp_all [splitWhere]
  | cons d cs ih =>
    simp only [splitWhere] at h
    split at h
    · rcases List.mem_cons.mp h with rfl | h
      · simp
      · exact ih h
    · rename_i hd
      split at h
      · obtain rfl := List.mem_singleton.mp h
        simpa using hd
      · rename_i first rest heq
        rw [heq] at ih
        rcases List.mem_cons.mp h with rfl | h
        · intro c hc
          rcases List.mem_cons.mp hc with rfl | hc
          · simpa using hd
          · exact ih (by simp) c hc
        · exact ih (by simp [h])

theorem mem_piecesWhere {p : Char → Bool} {cs piece : List Char} (h : piece ∈ piecesWhere p cs) :
    piece ≠ [] ∧ ∀ c ∈ piece, p c = false := by
  obtain ⟨hpiece, hne⟩ := List.mem_filter.mp h
  exact ⟨by simpa using hne, not_mem_of_mem_splitWhere hpiece⟩

theorem mem_joinChars {sep : List Char} {xs : List (List Char)} {c : Char}
    (h : c ∈ joinChars sep xs) : c ∈ sep ∨ ∃ x ∈ xs, c ∈ x := by
  fun_induction joinChars sep xs with
  | case1 => simp at h
  | case2 cs => exact .inr ⟨cs, by simp, h⟩
  | case3 cs rest hrest ih =>
    simp only [List.mem_append] at h
    rcases h with (h | h) | h
    · exact .inr ⟨cs, by simp, h⟩
    · exact .inl h
    · rcases ih h with hsep | ⟨x, hx, hc⟩
      · exact .inl hsep
      · exact .inr ⟨x, by simp [hx], hc⟩

theorem mem_of_mem_dropEndWhile {p : Char → Bool} {cs : List Char} {c : Char}
    (h : c ∈ dropEndWhile p cs) : c ∈ cs := by
  have hrev := (List.dropWhile_sublist p).subset (List.mem_reverse.mp h)
  exact List.mem_reverse.mp hrev

theorem splitWhere_ne_nil (p : Char → Bool) (cs : List Char) : splitWhere p cs ≠ [] := by
  cases cs with
  | nil => simp [splitWhere]
  | cons c cs =>
    rw [splitWhere]
    split_ifs
    · simp
    · split <;> simp

/-- Splitting loses the separators and nothing else. -/
theorem flatten_splitWhere (p : Char → Bool) (cs : List Char) :
    (splitWhere p cs).flatten = cs.filter (!p ·) := by
  induction cs with
  | nil => rfl
  | cons c cs ih =>
    rw [splitWhere]
    split_ifs with hc
    · simp [hc, ih]
    · obtain ⟨piece, pieces, hpieces⟩ := List.exists_cons_of_ne_nil (splitWhere_ne_nil p cs)
      rw [hpieces] at ih
      simp [hpieces, hc, ← ih]

theorem mem_of_mem_splitWhere {p : Char → Bool} {cs piece : List Char} (h : piece ∈ splitWhere p cs)
    {c : Char} (hc : c ∈ piece) : c ∈ cs := by
  have hflat : c ∈ (splitWhere p cs).flatten := List.mem_flatten.mpr ⟨piece, h, hc⟩
  rw [flatten_splitWhere] at hflat
  exact (List.mem_filter.mp hflat).1

/-- A separator parts what stands before it from what stands behind it. -/
theorem splitWhere_append_cons {p : Char → Bool} {sep : Char} (hsep : p sep = true)
    (cs rest : List Char) :
    splitWhere p (cs ++ sep :: rest) = splitWhere p cs ++ splitWhere p rest := by
  induction cs with
  | nil => simp [splitWhere, hsep]
  | cons c cs ih =>
    rw [List.cons_append, splitWhere, splitWhere, ih]
    split_ifs
    · rfl
    · obtain ⟨piece, pieces, hpieces⟩ := List.exists_cons_of_ne_nil (splitWhere_ne_nil p cs)
      rw [hpieces]
      rfl

theorem piecesWhere_append_cons {p : Char → Bool} {sep : Char} (hsep : p sep = true)
    (cs rest : List Char) :
    piecesWhere p (cs ++ sep :: rest) = piecesWhere p cs ++ piecesWhere p rest := by
  rw [piecesWhere, splitWhere_append_cons hsep, List.filter_append]
  rfl

theorem splitWhere_of_forall {p : Char → Bool} {cs : List Char} (h : ∀ c ∈ cs, p c = false) :
    splitWhere p cs = [cs] := by
  induction cs with
  | nil => rfl
  | cons c cs ih =>
    obtain ⟨hc, hcs⟩ := List.forall_mem_cons.mp h
    rw [splitWhere, ih hcs]
    simp [hc]

theorem piecesWhere_of_forall {p : Char → Bool} {cs : List Char} (h : ∀ c ∈ cs, p c = false)
    (hsome : cs ≠ []) :
    piecesWhere p cs = [cs] := by
  rw [piecesWhere, splitWhere_of_forall h, List.filter_cons_of_pos (by simpa using hsome),
    List.filter_nil]

theorem splitWhere_append {p : Char → Bool} {cs : List Char} (h : ∀ c ∈ cs, p c = false)
    (sep : Char)
    (hsep : p sep = true) (rest : List Char) :
    splitWhere p (cs ++ sep :: rest) = cs :: splitWhere p rest := by
  rw [splitWhere_append_cons hsep, splitWhere_of_forall h, List.singleton_append]

/-- Joined pieces are parted where they were joined. -/
theorem piecesWhere_joinChars {p : Char → Bool} {sep : Char} (hsep : p sep = true)
    {pieces : List (List Char)}
    (h : ∀ piece ∈ pieces, piece ≠ [] ∧ ∀ c ∈ piece, p c = false) :
    piecesWhere p (joinChars [sep] pieces) = pieces := by
  fun_induction joinChars [sep] pieces with
  | case1 => rfl
  | case2 piece =>
    obtain ⟨hsome, hplain⟩ := h piece List.mem_cons_self
    exact piecesWhere_of_forall hplain hsome
  | case3 piece rest hrest ih =>
    obtain ⟨⟨hsome, hplain⟩, hbehind⟩ := List.forall_mem_cons.mp h
    rw [List.append_assoc, List.singleton_append, piecesWhere_append_cons hsep,
      piecesWhere_of_forall hplain hsome, ih hbehind, List.singleton_append]

theorem map_joinChars (f : Char → Char) (sep : List Char) (xs : List (List Char)) :
    (joinChars sep xs).map f = joinChars (sep.map f) (xs.map (List.map f)) := by
  fun_induction joinChars sep xs with
  | case1 => rfl
  | case2 cs => rfl
  | case3 cs rest hrest ih =>
    obtain ⟨next, more, rfl⟩ := List.exists_cons_of_ne_nil hrest
    simp [ih, joinChars]

theorem joinChars_append_singleton (sep : List Char) (xs : List (List Char)) (x : List Char) :
    joinChars sep (xs ++ [x]) = joinChars sep xs ++ (if xs.isEmpty then [] else sep) ++ x := by
  fun_induction joinChars sep xs with
  | case1 => simp [joinChars]
  | case2 cs => simp [joinChars]
  | case3 cs rest hrest ih =>
    obtain ⟨next, more, rfl⟩ := List.exists_cons_of_ne_nil hrest
    rw [List.cons_append, List.cons_append, joinChars, ← List.cons_append, ih]
    · simp
    · simp

theorem stripEnd?_eq_some_iff {ending cs rest : List Char} :
    stripEnd? ending cs = some rest ↔ cs = rest ++ ending := by
  simp only [stripEnd?, Option.map_eq_some_iff, behind?_eq_some_iff]
  constructor
  · rintro ⟨front, hcs, rfl⟩
    rw [← List.reverse_inj, hcs]
    simp
  · rintro rfl
    exact ⟨rest.reverse, by simp, by simp⟩

theorem mem_of_mem_stripEnd? {ending cs rest : List Char} (h : stripEnd? ending cs = some rest)
    {c : Char} (hc : c ∈ rest) : c ∈ cs := by
  rw [stripEnd?_eq_some_iff.mp h]
  exact List.mem_append_left _ hc

/-- A text without an ending that a name does not have is the name exactly when it was the name,
with or without the ending. -/
theorem getD_stripEnd?_eq_iff {ending name word : List Char}
    (hname : stripEnd? ending name = none) :
    (stripEnd? ending word).getD word = name ↔ word = name ∨ word = name ++ ending := by
  cases hstrip : stripEnd? ending word with
  | none =>
    rw [Option.getD_none, or_iff_left]
    rintro rfl
    rw [stripEnd?_eq_some_iff.mpr rfl] at hstrip
    cases hstrip
  | some rest =>
    obtain rfl := stripEnd?_eq_some_iff.mp hstrip
    rw [Option.getD_some, List.append_left_inj, or_iff_right]
    rintro rfl
    rw [hname] at hstrip
    cases hstrip

end FlowMachine.Text
