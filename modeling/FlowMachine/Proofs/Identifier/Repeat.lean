import FlowMachine.Proofs.Emit.Places
import FlowMachine.Proofs.Identifier

/-!
# Names of names

A name that is made once stays as it is when it is made again. The underscores that are put in front
of a digit and behind a reserved word are lost when a name is taken apart, and put back where they
were.
-/
namespace FlowMachine

open FlowMachine.Text

namespace Identifier

/-! ## Snake case -/

theorem facts_of_isSnakeChar {c : Char} (h : isSnakeChar c = true) :
    c.isUpper = false ∧ c.toLower = c := by
  simp only [isSnakeChar, Bool.or_eq_true, beq_iff_eq] at h
  rcases h with h | rfl
  · exact (stemChar_facts h).2
  · decide

/-- In a text of snake characters no capital starts a new word. -/
theorem snakeWords_of_isSnakeChar {cs : List Char} (h : ∀ c ∈ cs, isSnakeChar c = true) :
    snakeWords cs = joinChars ['_'] (piecesWhere (!·.isAlphanum) cs) := by
  have hmarked : markHumps none cs = cs := by
    simpa [markHumps] using markHumps_append (fun c hc => (facts_of_isSnakeChar (h c hc)).1) none []
  rw [snakeWords, hmarked]
  refine (List.map_congr_left fun c hc => ?_).trans (List.map_id _)
  rcases mem_joinChars hc with hsep | ⟨piece, hpiece, hc⟩
  · rw [List.mem_singleton.mp hsep]
    rfl
  · exact (facts_of_isSnakeChar (h c (mem_of_mem_splitWhere (List.mem_filter.mp hpiece).1 hc))).2

/-- The words of a snake-case text are its pieces between underscores. -/
theorem joinChars_piecesWhere_snakeWords (cs : List Char) :
    joinChars ['_'] (piecesWhere (!·.isAlphanum) (snakeWords cs)) = snakeWords cs := by
  have hwords : snakeWords cs =
      joinChars ['_']
        ((piecesWhere (!·.isAlphanum) (markHumps none cs)).map (List.map Char.toLower)) := by
    rw [snakeWords, map_joinChars]
    rfl
  rw [hwords, piecesWhere_joinChars (by decide)]
  intro word hword
  obtain ⟨piece, hpiece, rfl⟩ := List.mem_map.mp hword
  obtain ⟨hsome, hplain⟩ := mem_piecesWhere hpiece
  refine ⟨by simpa using hsome, fun c hc => ?_⟩
  obtain ⟨letter, hletter, rfl⟩ := List.mem_map.mp hc
  have hsmall := isLower_or_isDigit_toLower (by simpa using hplain letter hletter)
  simp [(stemChar_facts hsmall).1]

theorem snakeWords_shieldDigit {cs : List Char} (h : ∀ c ∈ cs, isSnakeChar c = true) :
    snakeWords (shieldDigit cs) = snakeWords cs := by
  rw [snakeWords_of_isSnakeChar fun _ => isSnakeChar_of_mem_shieldDigit h,
    snakeWords_of_isSnakeChar h, piecesWhere_shieldDigit]

theorem snakeWords_append_underscore {cs : List Char} (h : ∀ c ∈ cs, isSnakeChar c = true) :
    snakeWords (cs ++ ['_']) = snakeWords cs := by
  have hall : ∀ c ∈ cs ++ ['_'], isSnakeChar c = true := by
    intro c hc
    rcases List.mem_append.mp hc with hc | hc
    · exact h c hc
    · rw [List.mem_singleton.mp hc]
      rfl
  have hnone : piecesWhere (!·.isAlphanum) [] = [] := rfl
  rw [snakeWords_of_isSnakeChar hall, snakeWords_of_isSnakeChar h,
    piecesWhere_append_cons (by decide), hnone, List.append_nil]

theorem snakeWords_snakeWords (cs : List Char) : snakeWords (snakeWords cs) = snakeWords cs := by
  rw [snakeWords_of_isSnakeChar fun _ => isSnakeChar_of_mem_snakeWords,
    joinChars_piecesWhere_snakeWords]

theorem snakeWords_stem (name : String) : snakeWords (stem name) = snakeWords name.toList := by
  rw [stem, snakeWords_shieldDigit fun _ => isSnakeChar_of_mem_snakeWords, snakeWords_snakeWords]

/-- A snake-case name has the same words as the name it was made from. -/
theorem stem_snake (name : String) : stem (snake name) = stem name := by
  have hsnake : ∀ c ∈ stem name, isSnakeChar c = true := fun _ => isSnakeChar_of_mem_stem
  obtain ⟨hempty, hs⟩ | ⟨-, -, hs⟩ | ⟨-, -, hs⟩ := snake_cases name
  · rw [hs, hempty]
    decide
  · rw [hs, stem, String.toList_append, String.toList_ofList]
    show shieldDigit (snakeWords (stem name ++ ['_'])) = _
    rw [snakeWords_append_underscore hsnake, snakeWords_stem, stem]
  · rw [hs, stem, String.toList_ofList, snakeWords_stem, stem]

/-- Every text has a snake-case name: small letters, digits and underscores with no digit in front,
no keyword, and its own snake-case name. -/
theorem snake_settled (name : String) :
    snake name ≠ "" ∧ (snake name).toList.all isSnakeChar = true ∧
      (snake name).toList.head?.any Char.isDigit = false ∧ snake name ∉ Module.keywords ∧
      snake (snake name) = snake name := by
  obtain ⟨c, rest, htext, hdigit⟩ := exists_toList_snake name
  refine ⟨?_, ?_, ?_, snake_not_mem_keywords name, ?_⟩
  · intro hempty
    rw [hempty] at htext
    simp at htext
  · exact List.all_eq_true.mpr fun _ => isSnakeChar_of_mem_snake
  · rw [htext, List.head?_cons, Option.any_some, hdigit]
  · rw [snake_eq (snake name), stem_snake, ← snake_eq]

/-! ## Machine ids -/

theorem toList_machineId (name : String) : (machineId name).toList =
    shieldDigit (machineStem name.toList) ++ machineSuffix.toList := by
  rw [machineId, String.toList_ofList]

/-- The stem of a machine id is the stem that it was made from. -/
theorem machineStem_machineId (name : String) :
    machineStem (machineId name).toList = machineStem name.toList := by
  have hstem := isStem_machineStem name.toList
  have hsuffix : (machineSuffix.toList.filter Char.isAlphanum).map Char.toLower =
    "machine".toList := by decide
  have hletters : ((machineId name).toList.filter Char.isAlphanum).map Char.toLower =
      machineStem name.toList ++ "machine".toList := by
    rw [toList_machineId, List.filter_append, filter_shieldDigit hstem, List.map_append,
      map_toLower_of_isStem hstem, hsuffix]
  have hstrip := stripEnd?_eq_some_iff.mpr (rfl : machineStem name.toList ++ "machine".toList = _)
  rw [machineStem, hletters, hstrip, Option.getD_some]

theorem dropWhile_machineId (name : String) : (machineId name).toList.dropWhile (· == '_') =
    machineStem name.toList ++ machineSuffix.toList := by
  have hstays : (machineStem name.toList ++ machineSuffix.toList).dropWhile (· == '_') =
      machineStem name.toList ++ machineSuffix.toList := by
    cases hstem : machineStem name.toList with
    | nil => decide
    | cons c cs =>
      have hsmall := isStem_machineStem name.toList c (by simp [hstem])
      have hne : c ≠ '_' := by
        rintro rfl
        revert hsmall
        decide
      rw [List.cons_append, List.dropWhile_cons_of_neg (by simpa using hne)]
  rw [toList_machineId]
  rcases shieldDigit_cases (machineStem name.toList) with hshield | hshield
  · rw [hshield, hstays]
  · rw [hshield, List.cons_append, List.dropWhile_cons_of_pos rfl, hstays]

/-- The capital form of a small letter, which is what a stem starts with if not with a digit. -/
theorem upperChar_of_not_isDigit {c : Char} (h : c.isLower = true ∨ c.isDigit = true)
    (hdigit : Text.isDigit c = false) :
    upperChar c = [c.toUpper] ∧ c.toUpper.isUpper = true := by
  have hc : c.toNat < 128 := by
    have := isAlphanum_iff.mp (stemChar_facts h).1
    omega
  revert h hdigit
  exact forall_ascii (P := fun c => c.isLower = true ∨ c.isDigit = true → Text.isDigit c = false →
    upperChar c = [c.toUpper] ∧ c.toUpper.isUpper = true) (by decide +kernel) hc

/-- The class name of a machine id starts with a capital and goes on with letters and digits. -/
theorem exists_toList_className (name : String) :
    ∃ c rest, (className (machineId name)).toList = c :: rest ∧
    c.isUpper = true ∧ rest.all Char.isAlphanum = true := by
  have hsuffix : machineSuffix.toList.all Char.isAlphanum = true := by decide
  rw [className, dropWhile_machineId]
  cases hstem : machineStem name.toList with
  | nil => exact ⟨'M', "achine".toList, by decide, by decide, by decide⟩
  | cons c cs =>
    have hall := isStem_machineStem name.toList
    rw [hstem] at hall
    obtain ⟨hc, hcs⟩ := List.forall_mem_cons.mp hall
    have hrest : (cs ++ machineSuffix.toList).all Char.isAlphanum = true := by
      rw [List.all_append, hsuffix, Bool.and_true]
      exact List.all_eq_true.mpr fun d hd => (stemChar_facts (hcs d hd)).1
    simp only [List.cons_append]
    split_ifs with hdigit
    · refine ⟨'M', c :: (cs ++ machineSuffix.toList), by simp, by decide, ?_⟩
      rw [List.all_cons, (stemChar_facts hc).1, hrest, Bool.and_true]
    · obtain ⟨hupper, hcapital⟩ := upperChar_of_not_isDigit hc (by simpa using hdigit)
      exact ⟨c.toUpper, cs ++ machineSuffix.toList, by simp [hupper], hcapital, hrest⟩

/-- A shield is put in front of a digit only. -/
theorem shieldDigit_eq (cs : List Char) :
    shieldDigit cs = (if cs.head?.any Char.isDigit then ['_'] else []) ++ cs := by
  cases cs with
  | nil => rfl
  | cons c cs => by_cases hdigit : c.isDigit = true <;> simp [shieldDigit, hdigit]

/-- A machine id is its own machine id. It is a stem of small letters and digits with `Machine`
behind it, and with an underscore in front exactly when the stem starts with a digit. Its module
name tells it from the others, and its class name is an identifier with a capital in front. -/
theorem machineId_settled (name : String) :
    machineId (machineId name) = machineId name ∧
      (∃ stem, IsStem stem ∧ (machineId name).toList =
        (if stem.head?.any Char.isDigit then ['_'] else []) ++ stem ++ "Machine".toList) ∧
      (∀ other, snake (machineId name) = snake (machineId other) ↔
        machineId name = machineId other) ∧
      ∃ c rest, (className (machineId name)).toList = c :: rest ∧ c.isUpper = true ∧
        rest.all Char.isAlphanum = true := by
  refine ⟨?_, ⟨machineStem name.toList, isStem_machineStem _, ?_⟩, fun other => snake_machineId_inj,
    exists_toList_className name⟩
  · rw [machineId, machineStem_machineId, ← machineId]
  · rw [toList_machineId, shieldDigit_eq]
    rfl

example : machineId "7 Machine-machine!" = "_7machineMachine" := by decide

end Identifier

end FlowMachine
