import FlowMachine.Diagram.Statement.Reader

/-!
# Chains as the lint sees them

A transition line is a chain of names, each with an optional bracketed form, joined by arrows. The
lint takes the forms more freely than reading does: it does not look into them.
-/
namespace FlowMachine.Lint

open FlowMachine.Text

def isPlain (c : Char) : Bool := c.isAlphanum || c == '_'

/-- Reads name characters; a hyphen belongs to the name when a name character follows. -/
def readHyphenated : List Char → List Char × List Char
  | [] => ([], [])
  | c :: cs =>
    if isPlain c || (c == '-' && cs.head?.any isPlain) then
      let rest := readHyphenated cs
      (c :: rest.1, rest.2)
    else ([], c :: cs)

/-- Opening and closing marks of the forms, in the order in which they are tried. -/
def forms : List (String × String) :=
  [("((", "))"), ("([", "])"), ("[[", "]]"), ("[", "]"), ("(", ")"), ("\x7b\x7b", "\x7d\x7d"),
   ("\x7b", "\x7d"), (">", "]")]

/-- What follows a form at the front of a text: the first form whose marks are both there. -/
def skipForm (cs : List Char) : List Char :=
  (forms.findSome? fun form =>
    (behind? form.1.toList cs).bind fun inner =>
      (cutAt? form.2.toList inner).map Prod.snd).getD cs

/-- A name with an optional form: the name and what follows. -/
def readName? (cs : List Char) : Option (List Char × List Char) :=
  if cs.head?.any isPlain then
    let word := readHyphenated cs
    some (word.1, skipForm word.2)
  else none

/-- Reads a label between pipes, if both pipes are there. -/
def readPipe (cs : List Char) : Option (List Char) × List Char :=
  match trimStart cs with
  | '|' :: inner =>
    match cutAt? ['|'] inner with
    | some cut => (some cut.1, trimStart cut.2)
    | none => (none, '|' :: inner)
  | rest => (none, rest)

/-- Reads an arrow and the blanks around it: its label, if it has one, and what follows. -/
def readArrow? (cs : List Char) : Option (Option (List Char) × List Char) :=
  match trimStart cs with
  | '-' :: '-' :: '>' :: rest => some (readPipe rest)
  | '-' :: '-' :: rest =>
    (cutAt? "-->".toList (trimStart rest)).map fun cut => (some (trimEnd cut.1), trimStart cut.2)
  | '-' :: '>' :: rest => some (readPipe rest)
  | _ => none

theorem length_readHyphenated (cs : List Char) :
    (readHyphenated cs).1.length + (readHyphenated cs).2.length = cs.length := by
  induction cs with
  | nil => rfl
  | cons c cs ih =>
    simp only [readHyphenated]
    split
    · simp only [List.length_cons]
      omega
    · simp

theorem length_skipForm_le (cs : List Char) : (skipForm cs).length ≤ cs.length := by
  simp only [skipForm]
  cases h : forms.findSome? fun form =>
    (behind? form.1.toList cs).bind fun inner =>
      (cutAt? form.2.toList inner).map Prod.snd with
  | none => simp
  | some rest =>
    obtain ⟨form, _, hf⟩ := List.exists_of_findSome?_eq_some h
    obtain ⟨inner, hi, hc⟩ := Option.bind_eq_some_iff.1 hf
    obtain ⟨cut, hcut, rfl⟩ := Option.map_eq_some_iff.1 hc
    have h1 := Statement.length_of_behind? hi
    have h2 := @Statement.length_of_cutAt? _ _ cut.1 cut.2 hcut
    simp only [Option.getD_some]
    omega

/-- A name takes at least one character. -/
theorem length_of_readName? {cs name rest : List Char} (h : readName? cs = some (name, rest)) :
    rest.length < cs.length := by
  simp only [readName?] at h
  split at h
  · rename_i hp
    simp only [Option.some.injEq, Prod.mk.injEq] at h
    have h1 := length_readHyphenated cs
    have h2 := length_skipForm_le (readHyphenated cs).2
    have h3 : 0 < (readHyphenated cs).1.length := by
      cases cs with
      | nil => simp at hp
      | cons c cs =>
        simp only [List.head?_cons, Option.any_some] at hp
        simp [readHyphenated, hp]
    rw [← h.2]
    omega
  · cases h

theorem length_readPipe_le (cs : List Char) : (readPipe cs).2.length ≤ cs.length := by
  have ht := Statement.length_trimStart_le cs
  simp only [readPipe]
  split
  · rename_i inner hi
    rw [hi, List.length_cons] at ht
    split
    · rename_i cut hc
      have h1 := @Statement.length_of_cutAt? _ _ cut.1 cut.2 hc
      have h2 := Statement.length_trimStart_le cut.2
      simp only
      omega
    · simp only [List.length_cons]
      omega
  · exact ht

theorem length_of_readArrow? {cs rest : List Char} {label : Option (List Char)}
    (h : readArrow? cs = some (label, rest)) : rest.length ≤ cs.length := by
  have ht := Statement.length_trimStart_le cs
  simp only [readArrow?] at h
  split at h
  · rename_i r hr
    rw [hr] at ht
    simp only [List.length_cons] at ht
    simp only [Option.some.injEq] at h
    have := length_readPipe_le r
    rw [h] at this
    simp only at this
    omega
  · rename_i r _ hr
    rw [hr] at ht
    simp only [List.length_cons] at ht
    obtain ⟨cut, hc, e⟩ := Option.map_eq_some_iff.1 h
    simp only [Prod.mk.injEq] at e
    have h1 := @Statement.length_of_cutAt? _ _ cut.1 cut.2 hc
    have h2 := Statement.length_trimStart_le cut.2
    have h3 := Statement.length_trimStart_le r
    rw [← e.2]
    omega
  · rename_i r hr
    rw [hr] at ht
    simp only [List.length_cons] at ht
    simp only [Option.some.injEq] at h
    have := length_readPipe_le r
    rw [h] at this
    simp only at this
    omega
  · cases h

/-- The names of a chain and the labels of its arrows. -/
structure Chain where
  names : List (List Char)
  labels : List (List Char) := []
deriving DecidableEq, Repr

/-- Reads the arrows and names that follow a name to the end of the line. -/
def readLinks? (cs : List Char) : Option Chain :=
  if cs.isEmpty then some ⟨[], []⟩
  else
    match _ha : readArrow? cs with
    | none => none
    | some (label, behind) =>
      match _hn : readName? behind with
      | none => none
      | some (name, rest) =>
        match readLinks? rest with
        | none => none
        | some more => some ⟨name :: more.names, (label.map trim).toList ++ more.labels⟩
termination_by cs.length
decreasing_by
  have := length_of_readArrow? _ha
  have := length_of_readName? _hn
  omega

/-- Reads a line of at least one arrow. -/
def readChain? (cs : List Char) : Option Chain :=
  match readName? cs with
  | none => none
  | some (first, rest) =>
    match readLinks? rest with
    | none => none
    | some more =>
      if more.names.isEmpty then none else some { more with names := first :: more.names }

/-- A whole line that is a name with an optional form: the name and the form. -/
def node? (cs : List Char) : Option (List Char × List Char) :=
  if cs.head?.any isPlain then
    let word := readHyphenated cs
    let encloses (form : String × String) : Bool :=
      form.1.toList.isPrefixOf word.2 && form.2.toList.isSuffixOf word.2 &&
        decide (form.1.length + form.2.length ≤ word.2.length)
    if word.2.isEmpty || forms.any encloses then some word else none
  else none

end FlowMachine.Lint
