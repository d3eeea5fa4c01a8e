import FlowMachine.Identifier
import FlowMachine.Module.Reader
import FlowMachine.Proofs.Text.Pieces

/-!
# Identifiers out of arbitrary text

A snake-case name consists of small letters, digits and underscores, has no digit in front and is no
keyword. A method name is such a name, or one with its role in front; either way a written module
can define a method of that name beside what every model has.
-/
namespace FlowMachine.Identifier

open FlowMachine.Text

def isSnakeChar (c : Char) : Bool := c.isLower || c.isDigit || c == '_'

/-- A name for a method of the model: an identifier of ASCII characters that is no keyword, does not
start with an underscore, and is not the name of something that every model has. -/
structure Usable (name : String) : Prop where
  identifier : ∃ c rest, name.toList = c :: rest ∧ (c.isAlpha = true ∨ c = '_') ∧
    ∀ x ∈ rest, x.isAlphanum = true ∨ x = '_'
  not_keyword : name ∉ Module.keywords
  no_underscore : name.toList.head? ≠ some '_'
  not_member : name ∉ modelMembers

theorem isAlpha_of_isLower {c : Char} (h : c.isLower = true) : c.isAlpha = true := by
  show (c.isUpper || c.isLower) = true
  rw [h, Bool.or_true]

theorem isAlphanum_of_isSnakeChar {c : Char} (h : isSnakeChar c = true) :
    c.isAlphanum = true ∨ c = '_' := by
  simp only [isSnakeChar, Bool.or_eq_true, beq_iff_eq] at h
  rcases h with h | h
  · refine .inl ?_
    show (c.isAlpha || c.isDigit) = true
    exact Bool.or_eq_true_iff.mpr (h.imp_left isAlpha_of_isLower)
  · exact .inr h

/-- The form in which all names of methods are met here: small letter first, snake characters
behind. -/
theorem identifier_of_isLower {name : String} {c : Char} {rest : List Char}
    (hname : name.toList = c :: rest) (hc : c.isLower = true)
    (hrest : ∀ x ∈ rest, isSnakeChar x = true) :
    (∃ c rest, name.toList = c :: rest ∧ (c.isAlpha = true ∨ c = '_') ∧
      ∀ x ∈ rest, x.isAlphanum = true ∨ x = '_') ∧ name.toList.head? ≠ some '_' := by
  refine ⟨⟨c, rest, hname, .inl (isAlpha_of_isLower hc), ?_⟩, ?_⟩
  · exact fun x hx => isAlphanum_of_isSnakeChar (hrest x hx)
  · rintro hhead
    rw [hname, List.head?_cons, Option.some.injEq] at hhead
    subst hhead
    exact absurd hc (by decide)

theorem Usable.ne_empty {name : String} (h : Usable name) : name ≠ "" := by
  rintro rfl
  obtain ⟨c, rest, htext, -⟩ := h.identifier
  simp at htext

/-! ## Snake case -/

theorem isSnakeChar_of_mem_snakeWords {cs : List Char} {c : Char} (h : c ∈ snakeWords cs) :
    isSnakeChar c = true := by
  obtain ⟨d, hd, rfl⟩ := List.mem_map.mp h
  rcases mem_joinChars hd with hsep | ⟨piece, hpiece, hd⟩
  · obtain rfl := List.mem_singleton.mp hsep
    decide
  · have halnum : d.isAlphanum = true := by simpa using (mem_piecesWhere hpiece).2 d hd
    rcases isLower_or_isDigit_toLower halnum with hlower | hdigit
    · simp [isSnakeChar, hlower]
    · simp [isSnakeChar, hdigit]

theorem isSnakeChar_of_mem_shieldDigit {cs : List Char} (hcs : ∀ c ∈ cs, isSnakeChar c = true)
    {c : Char} (h : c ∈ shieldDigit cs) : isSnakeChar c = true := by
  unfold shieldDigit at h
  split at h
  · simp at h
  · split at h
    · rcases List.mem_cons.mp h with rfl | h
      · decide
      · exact hcs c h
    · exact hcs c h

theorem isDigit_head_shieldDigit {cs rest : List Char} {c : Char} (h : shieldDigit cs = c :: rest) :
    c.isDigit = false := by
  unfold shieldDigit at h
  split at h
  · simp at h
  · rename_i d ds
    split at h
    · obtain ⟨rfl, -⟩ := List.cons.inj h
      decide
    · rename_i hd
      obtain ⟨rfl, -⟩ := List.cons.inj h
      simpa using hd

/-- The text of a name before reserved words are looked for. -/
def stem (name : String) : List Char := shieldDigit (snakeWords name.toList)

theorem isSnakeChar_of_mem_stem {name : String} {c : Char} (h : c ∈ stem name) :
    isSnakeChar c = true :=
  isSnakeChar_of_mem_shieldDigit (fun _ hc => isSnakeChar_of_mem_snakeWords hc) h

theorem snake_eq (name : String) : snake name =
    if (stem name).isEmpty then "_"
    else if reservedWords.contains (String.ofList (stem name)) then
      String.ofList (stem name) ++ "_"
    else String.ofList (stem name) := rfl

/-- An empty name becomes an underscore, a reserved word gets one behind it, and any other stays. -/
theorem snake_cases (name : String) :
    (stem name = [] ∧ snake name = "_") ∨
    (stem name ≠ [] ∧ String.ofList (stem name) ∈ reservedWords ∧
      snake name = String.ofList (stem name) ++ "_") ∨
    (stem name ≠ [] ∧ String.ofList (stem name) ∉ reservedWords ∧
      snake name = String.ofList (stem name)) := by
  by_cases hempty : stem name = []
  · exact .inl ⟨hempty, by simp [snake_eq, hempty]⟩
  · by_cases hword : String.ofList (stem name) ∈ reservedWords
    · exact .inr (.inl ⟨hempty, hword, by simp [snake_eq, hempty, hword]⟩)
    · exact .inr (.inr ⟨hempty, hword, by simp [snake_eq, hempty, hword]⟩)

theorem isSnakeChar_of_mem_snake {name : String} {c : Char} (h : c ∈ (snake name).toList) :
    isSnakeChar c = true := by
  obtain ⟨-, hs⟩ | ⟨-, -, hs⟩ | ⟨-, -, hs⟩ := snake_cases name
  · rw [hs] at h
    obtain rfl : c = '_' := by simpa using h
    decide
  · rw [hs, String.toList_append, String.toList_ofList] at h
    rcases List.mem_append.mp h with h | h
    · exact isSnakeChar_of_mem_stem h
    · obtain rfl : c = '_' := by simpa using h
      decide
  · rw [hs, String.toList_ofList] at h
    exact isSnakeChar_of_mem_stem h

/-- A snake-case name has a first character, and it is no digit. -/
theorem exists_toList_snake (name : String) :
    ∃ c rest, (snake name).toList = c :: rest ∧ c.isDigit = false := by
  obtain ⟨-, hs⟩ | ⟨hne, -, hs⟩ | ⟨hne, -, hs⟩ := snake_cases name
  · exact ⟨'_', [], by simp [hs], by decide⟩
  · obtain ⟨c, rest, hstem⟩ := List.exists_cons_of_ne_nil hne
    exact ⟨c, rest ++ ['_'], by simp [hs, hstem], isDigit_head_shieldDigit hstem⟩
  · obtain ⟨c, rest, hstem⟩ := List.exists_cons_of_ne_nil hne
    exact ⟨c, rest, by simp [hs, hstem], isDigit_head_shieldDigit hstem⟩

theorem snake_not_mem_keywords (name : String) : snake name ∉ Module.keywords := by
  -- The keywords with capitals are not in snake case, so only the reserved words are left.
  have hcapital : snake name ∉ ["False", "None", "True"] := by
    intro h
    have hall : ∀ w ∈ ["False", "None", "True"], w.toList.all isSnakeChar = false := by decide
    have hsnake : (snake name).toList.all isSnakeChar = true :=
      List.all_eq_true.mpr fun _ hc => isSnakeChar_of_mem_snake hc
    rw [hall _ h] at hsnake
    cases hsnake
  have hreserved : snake name ∉ reservedWords := by
    obtain ⟨-, hs⟩ | ⟨-, -, hs⟩ | ⟨-, hnot, hs⟩ := snake_cases name
    · rw [hs]
      decide
    · intro h
      have hlast : ∀ w ∈ reservedWords, w.toList.getLast? ≠ some '_' := by decide
      exact hlast _ h (by simp [hs])
    · rwa [hs]
  simp only [Module.keywords, List.mem_append, not_or]
  exact ⟨hcapital, hreserved⟩

/-! ## Method names -/

/-- The name is not free for a method. -/
def Occupied (taken : List String) (word : String) : Prop :=
  word ∈ modelMembers ∨ word ∈ taken ∨ word.toList.head? = some '_'

theorem method_of_occupied {name role : String} {taken : List String}
    (h : Occupied taken (snake name)) :
    method name role taken = role ++ "_" ++ trimUnderscores (snake name) := by
  have hcond : (modelMembers.contains (snake name) || taken.contains (snake name) ||
      (snake name).toList.head? == some '_') = true := by
    simpa [Occupied, or_assoc] using h
  simp only [method, hcond, if_true]

theorem method_of_free {name role : String} {taken : List String}
    (h : ¬ Occupied taken (snake name)) : method name role taken = snake name := by
  have hcond : (modelMembers.contains (snake name) || taken.contains (snake name) ||
      (snake name).toList.head? == some '_') = false := by
    rw [← Bool.not_eq_true]
    simpa [Occupied, or_assoc] using h
  simp only [method, hcond, Bool.false_eq_true, if_false]

theorem isSnakeChar_of_mem_trimUnderscores {s : String}
    (hs : ∀ c ∈ s.toList, isSnakeChar c = true) {c : Char} (h : c ∈ (trimUnderscores s).toList) :
    isSnakeChar c = true := by
  rw [trimUnderscores, String.toList_ofList] at h
  exact hs c ((List.dropWhile_sublist _).subset (mem_of_mem_dropEndWhile h))

/-- A text in front of which no word of a list starts. -/
theorem append_not_mem {lead : String} {words : List String}
    (h : ∀ w ∈ words, ¬ lead.toList <+: w.toList) (name : String) : lead ++ name ∉ words := by
  intro hmem
  refine h _ hmem ?_
  rw [String.toList_append]
  exact List.prefix_append _ _

/-- A lead that starts with a small letter, and with which neither a keyword nor a member of the
model starts, makes any snake-case text usable. -/
def IsLead (lead : String) : Prop :=
  lead.toList.head?.any Char.isLower = true ∧ lead.toList.all isSnakeChar = true ∧
    (∀ w ∈ Module.keywords, ¬ lead.toList <+: w.toList) ∧
    ∀ w ∈ modelMembers, ¬ lead.toList <+: w.toList

instance (lead : String) : Decidable (IsLead lead) := inferInstanceAs (Decidable (_ ∧ _ ∧ _ ∧ _))

theorem usable_append {lead name : String} (hlead : IsLead lead)
    (hname : ∀ c ∈ name.toList, isSnakeChar c = true) : Usable (lead ++ name) := by
  obtain ⟨hhead, hchars, hkeywords, hmembers⟩ := hlead
  obtain ⟨c, rest, hrest, hlower⟩ : ∃ c rest, lead.toList = c :: rest ∧ c.isLower = true := by
    cases hl : lead.toList with
    | nil => simp [hl] at hhead
    | cons c rest => exact ⟨c, rest, rfl, by simpa [hl] using hhead⟩
  have hall : ∀ x ∈ rest ++ name.toList, isSnakeChar x = true := by
    intro x hx
    rcases List.mem_append.mp hx with hx | hx
    · exact List.all_eq_true.mp hchars x (by simp [hrest, hx])
    · exact hname x hx
  have htext : (lead ++ name).toList = c :: (rest ++ name.toList) := by simp [hrest]
  obtain ⟨hident, hunder⟩ := identifier_of_isLower htext hlower hall
  exact ⟨hident, append_not_mem hkeywords name, hunder, append_not_mem hmembers name⟩

theorem usable_of_isLead {lead : String} (h : IsLead lead) : Usable lead := by
  have hempty : ∀ c ∈ "".toList, isSnakeChar c = true := by simp
  simpa using usable_append h hempty

theorem usable_snake {name : String} {taken : List String} (h : ¬ Occupied taken (snake name)) :
    Usable (snake name) := by
  simp only [Occupied, not_or] at h
  obtain ⟨hmember, -, hunder⟩ := h
  obtain ⟨c, rest, htext, hdigit⟩ := exists_toList_snake name
  have hchars : ∀ x ∈ c :: rest, isSnakeChar x = true := by
    rw [← htext]
    exact fun x hx => isSnakeChar_of_mem_snake hx
  have hlower : c.isLower = true := by
    have hc := hchars c (by simp)
    have hne : c ≠ '_' := by simpa [htext] using hunder
    simpa [isSnakeChar, hdigit, hne] using hc
  obtain ⟨hident, -⟩ := identifier_of_isLower htext hlower fun x hx => hchars x (by simp [hx])
  exact ⟨hident, snake_not_mem_keywords name, hunder, hmember⟩

/-- Whatever is taken, a method name can be used. -/
theorem usable_method (name : String) {role : String} (taken : List String)
    (hrole : IsLead (role ++ "_")) : Usable (method name role taken) := by
  by_cases h : Occupied taken (snake name)
  · rw [method_of_occupied h]
    refine usable_append hrole fun c hc => ?_
    exact isSnakeChar_of_mem_trimUnderscores (fun _ hd => isSnakeChar_of_mem_snake hd) hc
  · rw [method_of_free h]
    exact usable_snake h

end FlowMachine.Identifier
