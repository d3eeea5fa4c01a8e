import FlowMachine.Diagram.Statement
import FlowMachine.Label
import FlowMachine.Text.Word

/-!
# Reading a line

A line is read from left to right. A class definition and a class assignment are told by their first
word; every other line is a chain of nodes joined by arrows, or a style directive behind a single
node. Each reader returns what it read and the rest of the line, and the rest is shorter than what
it was given, so reading a chain ends.
-/
namespace FlowMachine.Statement

open FlowMachine.Text

def isNameChar (c : Char) : Bool := c.isAlphanum || c == '_' || c == '-'

/-- A state name starts with a letter and goes on with letters, digits, underscores and hyphens. -/
def isStateName (cs : List Char) : Bool :=
  match cs with
  | [] => false
  | c :: rest => c.isAlpha && rest.all isNameChar

/-- A class name is made of words with single hyphens between them. -/
def isClassName (cs : List Char) : Bool :=
  (splitWhere (· == '-') cs).all fun part => !part.isEmpty && part.all isWord

/-- Two characters that start an arrow. -/
def startsArrow : List Char → Bool
  | '-' :: '-' :: _ => true
  | '-' :: '>' :: _ => true
  | _ => false

/-- Reads the longest run of name characters in which no arrow starts. -/
def readName : List Char → List Char × List Char
  | [] => ([], [])
  | c :: cs =>
    if isNameChar c && !startsArrow (c :: cs) then
      let rest := readName cs
      (c :: rest.1, rest.2)
    else ([], c :: cs)

/-- Reads up to a closing mark. -/
def readUntil (closer : String) (what : Enclosure) (cs : List Char) :
    Except Malformed (List Char × List Char) :=
  match cutAt? closer.toList cs with
  | some cut => .ok cut
  | none => .error (.unclosed what closer)

/-- A bracket pair and the shape it stands for. -/
structure Bracket where
  opener : String
  closer : String
  shape : Shape

/-- The bracket pairs; a longer opener stands before a shorter one that it starts with. -/
def brackets : List Bracket :=
  [⟨"((", "))", .circle⟩, ⟨"([", "])", .stadium⟩, ⟨"(", ")", .rounded⟩, ⟨"[", "]", .rectangle⟩,
   ⟨"\x7b\x7b", "\x7d\x7d", .hexagon⟩, ⟨"\x7b", "\x7d", .diamond⟩]

/-- The bracket pair that opens here, and what follows its opener. -/
def bracketAt? (cs : List Char) : Option (Bracket × List Char) :=
  brackets.findSome? fun b => (behind? b.opener.toList cs).map fun rest => (b, rest)

/-- Reads the bracketed form behind a node id, if there is one. -/
def readForm (id : String) (cs : List Char) :
    Except Malformed (Option (Shape × String) × List Char) :=
  match bracketAt? cs with
  | none => .ok (none, cs)
  | some (b, inner) =>
    match readUntil b.closer (.nodeLabel id) inner with
    | .error e => .error e
    | .ok (label, rest) => .ok (some (b.shape, String.ofList (Label.unquote label)), rest)

/-- What is shown of the rest of a line. -/
def excerpt (n : Nat) (cs : List Char) : String := String.ofList ((trim cs).take n)

/-- Reads a mention of a node. -/
def readNode (cs : List Char) : Except Malformed (NodeRef × List Char) :=
  let word := readName (trimStart cs)
  if word.1.isEmpty then .error (.noIdentifier (excerpt 20 word.2))
  else if !isStateName word.1 then .error (.badStateName (String.ofList word.1))
  else
    let id := String.ofList word.1
    match readForm id word.2 with
    | .error e => .error e
    | .ok (form, rest) => .ok (⟨id, form⟩, rest)

/-- Reads a label between pipes, if one follows. -/
def readPipeLabel (cs : List Char) : Except Malformed (Option String × List Char) :=
  match trimStart cs with
  | '|' :: inner =>
    match readUntil "|" .edgeLabel inner with
    | .error e => .error e
    | .ok (label, rest) => .ok (some (String.ofList (Label.unquote label)), rest)
  | rest => .ok (none, rest)

/-- Reads an arrow with its label; without a label the label is empty. -/
def readArrow (cs : List Char) : Except Malformed (String × Arrow × List Char) :=
  match trimStart cs with
  | '-' :: '-' :: '>' :: rest =>
    match readPipeLabel rest with
    | .error e => .error e
    | .ok (some label, rest) => .ok (label, .labeled, rest)
    | .ok (none, rest) => .ok ("", .plain, rest)
  | '-' :: '-' :: rest =>
    match readUntil "-->" .dashedLabel rest with
    | .error e => .error e
    | .ok (label, rest) => .ok (String.ofList (Label.unquote label), .dashed, rest)
  | '-' :: '>' :: rest =>
    match readPipeLabel rest with
    | .error e => .error e
    | .ok (label, rest) => .ok (label.getD "", .single, rest)
  | rest => .error (.unexpected (excerpt 30 rest))

theorem length_trimStart_le (cs : List Char) : (trimStart cs).length ≤ cs.length :=
  (List.dropWhile_sublist isBlank).length_le

theorem length_of_behind? {mark cs rest : List Char} (h : behind? mark cs = some rest) :
    cs.length = mark.length + rest.length := by
  rw [behind?_eq_some_iff.1 h, List.length_append]

theorem length_of_cutAt? {mark cs before after : List Char}
    (h : cutAt? mark cs = some (before, after)) :
    cs.length = before.length + mark.length + after.length := by
  induction cs generalizing before after with
  | nil =>
    simp only [cutAt?, List.isEmpty_iff] at h
    split at h <;> simp_all
  | cons c cs ih =>
    simp only [cutAt?] at h
    split at h
    · rename_i rest hp
      simp only [Option.some.injEq, Prod.mk.injEq] at h
      have := length_of_behind? hp
      obtain ⟨rfl, rfl⟩ := h
      simp_all
    · cases hc : cutAt? mark cs with
      | none => simp [hc] at h
      | some cut =>
        simp only [hc, Option.map_some, Option.some.injEq, Prod.mk.injEq] at h
        obtain ⟨rfl, rfl⟩ := h
        have := @ih cut.1 cut.2 hc
        simp only [List.length_cons]
        omega

theorem length_readName (cs : List Char) :
    (readName cs).1.length + (readName cs).2.length = cs.length := by
  induction cs with
  | nil => rfl
  | cons c cs ih =>
    simp only [readName]
    split
    · simp only [List.length_cons]
      omega
    · simp

theorem length_of_readUntil {closer : String} {what : Enclosure} {cs label rest : List Char}
    (h : readUntil closer what cs = .ok (label, rest)) : rest.length ≤ cs.length := by
  simp only [readUntil] at h
  split at h
  · rename_i cut hc
    have := @length_of_cutAt? _ _ cut.1 cut.2 hc
    simp only [Except.ok.injEq] at h
    subst h
    simp only at this
    omega
  · cases h

theorem length_of_bracketAt? {cs rest : List Char} {b : Bracket}
    (h : bracketAt? cs = some (b, rest)) : rest.length ≤ cs.length := by
  obtain ⟨a, _, ha⟩ := List.exists_of_findSome?_eq_some h
  obtain ⟨r, hr, e⟩ := Option.map_eq_some_iff.1 ha
  have := length_of_behind? hr
  simp only [Prod.mk.injEq] at e
  obtain ⟨rfl, rfl⟩ := e
  omega

theorem length_of_readForm {id : String} {cs rest : List Char} {form : Option (Shape × String)}
    (h : readForm id cs = .ok (form, rest)) : rest.length ≤ cs.length := by
  simp only [readForm] at h
  split at h
  · simp only [Except.ok.injEq, Prod.mk.injEq] at h
    simp [h.2]
  · rename_i b inner hb
    split at h
    · cases h
    · rename_i label rest' hu
      simp only [Except.ok.injEq, Prod.mk.injEq] at h
      have := length_of_readUntil hu
      have := length_of_bracketAt? hb
      rw [← h.2]
      omega

/-- A node takes at least one character. -/
theorem length_of_readNode {cs rest : List Char} {ref : NodeRef}
    (h : readNode cs = .ok (ref, rest)) : rest.length < cs.length := by
  have hn := length_readName (trimStart cs)
  have ht := length_trimStart_le cs
  simp only [readNode] at h
  split at h
  · cases h
  · rename_i hw
    have hpos : 0 < (readName (trimStart cs)).1.length := by
      cases hc : (readName (trimStart cs)).1 with
      | nil => simp [hc] at hw
      | cons => simp
    split at h
    · cases h
    · split at h
      · cases h
      · rename_i form rest' hf
        simp only [Except.ok.injEq, Prod.mk.injEq] at h
        have := length_of_readForm hf
        rw [← h.2]
        omega

theorem length_of_readPipeLabel {cs rest : List Char} {label : Option String}
    (h : readPipeLabel cs = .ok (label, rest)) : rest.length ≤ cs.length := by
  have ht := length_trimStart_le cs
  simp only [readPipeLabel] at h
  split at h
  · rename_i inner hi
    split at h
    · cases h
    · rename_i label' rest' hu
      simp only [Except.ok.injEq, Prod.mk.injEq] at h
      have := length_of_readUntil hu
      rw [hi, List.length_cons] at ht
      rw [← h.2]
      omega
  · simp only [Except.ok.injEq, Prod.mk.injEq] at h
    rw [← h.2]
    exact ht

/-- An arrow takes at least two characters. -/
theorem length_of_readArrow {cs rest : List Char} {label : String} {arrow : Arrow}
    (h : readArrow cs = .ok (label, arrow, rest)) : rest.length < cs.length := by
  have ht := length_trimStart_le cs
  simp only [readArrow] at h
  split at h
  · rename_i r hr
    rw [hr] at ht
    simp only [List.length_cons] at ht
    split at h
    · cases h
    · rename_i l r' hp
      have := length_of_readPipeLabel hp
      simp only [Except.ok.injEq, Prod.mk.injEq] at h
      rw [← h.2.2]
      omega
    · rename_i r' hp
      have := length_of_readPipeLabel hp
      simp only [Except.ok.injEq, Prod.mk.injEq] at h
      rw [← h.2.2]
      omega
  · rename_i r _ hr
    rw [hr] at ht
    simp only [List.length_cons] at ht
    split at h
    · cases h
    · rename_i l r' hu
      have := length_of_readUntil hu
      simp only [Except.ok.injEq, Prod.mk.injEq] at h
      rw [← h.2.2]
      omega
  · rename_i r hr
    rw [hr] at ht
    simp only [List.length_cons] at ht
    split at h
    · cases h
    · rename_i l r' hp
      have := length_of_readPipeLabel hp
      simp only [Except.ok.injEq, Prod.mk.injEq] at h
      rw [← h.2.2]
      omega
  · cases h

/-- Reads the arrows and nodes that follow a node to the end of the line. -/
def readEdges (line : Option Int) (source : NodeRef) (cs : List Char) :
    Except Malformed (List Statement) :=
  if (trimStart cs).isEmpty then .ok []
  else
    match _ha : readArrow cs with
    | .error e => .error e
    | .ok (label, arrow, behind) =>
      if (trimStart behind).isEmpty then .error (.noTarget source.id)
      else
        match _hn : readNode behind with
        | .error e => .error e
        | .ok (target, rest) =>
          match readEdges line target rest with
          | .error e => .error e
          | .ok more => .ok (.edge source target label arrow line :: more)
termination_by cs.length
decreasing_by
  have := length_of_readArrow _ha
  have := length_of_readNode _hn
  omega

/-- The first word behind a key, blanks between them passed over. -/
def wordBehind? (key : List Char) : List Char → Option (List Char)
  | [] => none
  | c :: cs =>
    match (behind? key (c :: cs)).map fun rest => (trimStart rest).takeWhile isWord with
    | some (w :: ws) => some (w :: ws)
    | _ => wordBehind? key cs

/-- The text behind a key up to a comma or a semicolon, if it is not empty. -/
def itemBehind? (key : List Char) : List Char → Option (List Char)
  | [] => none
  | c :: cs =>
    match (behind? key (c :: cs)).map fun rest =>
        rest.takeWhile fun d => !(d == ',' || d == ';') with
    | some (w :: ws) => some (w :: ws)
    | _ => itemBehind? key cs

/-- Reads a style directive behind its opening brace. -/
def readDirective (line : Option Int) (id : String) (cs : List Char) :
    Except Malformed (List Statement) :=
  match readUntil "\x7d" (.directive id) cs with
  | .error e => .error e
  | .ok (body, rest) =>
    if !(trimStart rest).isEmpty then .error (.behindDirective id)
    else
      let shape := (wordBehind? "shape:".toList body).map String.ofList
      let classes := ((itemBehind? "class:".toList body).map words).getD []
      .ok [.style id shape (classes.map String.ofList) line]

/-- Reads a chain of nodes, a single node or a style directive. -/
def readChain (line : Option Int) (cs : List Char) : Except Malformed (List Statement) :=
  match readNode cs with
  | .error e => .error e
  | .ok (first, rest) =>
    match first.form, rest with
    | none, '@' :: '{' :: inner => readDirective line first.id inner
    | _, _ =>
      match readEdges line first rest with
      | .error e => .error e
      | .ok [] => .ok [.node first line]
      | .ok edges => .ok edges

/-- Reads a class definition behind its keyword. -/
def readClassDef (line : Option Int) (cs : List Char) : Except Malformed (List Statement) :=
  let word := readName (trimStart cs)
  let name := String.ofList word.1
  if word.1.isEmpty || !isClassName word.1 then .error (.badClassDef name)
  else
    let styles := ((splitWhere (· == ',') word.2).map trim).filter (!·.isEmpty)
    if styles.isEmpty then .error (.noStyles name)
    else .ok [.classDef name (styles.map String.ofList) line]

/-- Reads a class assignment behind its keyword. -/
def readAssignment (line : Option Int) (cs : List Char) : Except Malformed (List Statement) :=
  match splitLastWord? (trim cs) with
  | none => .error .incompleteAssignment
  | some (targets, className) =>
    if !isClassName className then .error (.badClassName (String.ofList className))
    else
      let ids := piecesWhere (fun c => c == ',' || isBlank c) targets
      match ids.find? (!isStateName ·) with
      | some bad => .error (.badStateName (String.ofList bad))
      | none => .ok [.assign (ids.map String.ofList) (String.ofList className) line]

/-- What is left of a line without blanks at its ends and semicolons behind it. -/
def lineBody (cs : List Char) : List Char := trimEnd (dropEndWhile (· == ';') (trim cs))

/-- The text behind `classDef`, when a blank parts them. -/
def classDefBody? (cs : List Char) : Option (List Char) :=
  match behind? "classDef".toList cs with
  | some rest => if rest.head?.any isBlank then some rest else none
  | none => none

/-- The text behind `class`, when blanks and a letter follow. -/
def assignmentBody? (cs : List Char) : Option (List Char) :=
  match behind? "class".toList cs with
  | some rest =>
    if rest.head?.any isBlank && (trimStart rest).head?.any Char.isAlpha then some rest else none
  | none => none

/-- Reads a line into its statements; an empty line has none. -/
def read (line : Option Int) (cs : List Char) : Except Malformed (List Statement) :=
  let body := lineBody cs
  if body.isEmpty then .ok []
  else
    match classDefBody? body with
    | some rest => readClassDef line rest
    | none =>
      match assignmentBody? body with
      | some rest => readAssignment line rest
      | none => readChain line body

end FlowMachine.Statement
