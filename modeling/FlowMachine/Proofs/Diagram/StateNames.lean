import FlowMachine.Diagram.Block
import Mathlib.Tactic.SplitIfs

/-!
# State names

Whatever line is read, the statements it gives mention nodes by state names only. For each reader an
inversion lemma says how it can succeed, and the statement about its names follows from that.
Nothing is said here about which lines can be read.
-/
namespace FlowMachine

open FlowMachine.Text

/-- A letter, with letters, digits, underscores and hyphens behind it. -/
def IsStateName (id : String) : Prop :=
  ∃ c rest, id.toList = c :: rest ∧ c.isAlpha = true ∧
    ∀ x ∈ rest, x.isAlphanum = true ∨ x = '_' ∨ x = '-'

namespace Statement

/-- The ids by which a statement mentions nodes, in order. -/
def mentioned : Statement → List String
  | .node ref _ => [ref.id]
  | .edge source target _ _ _ => [source.id, target.id]
  | .classDef _ _ _ => []
  | .assign ids _ _ => ids
  | .style id _ _ _ => [id]

/-- Every node that the statement mentions has a state name. -/
def Named (s : Statement) : Prop := ∀ id ∈ s.mentioned, IsStateName id

theorem isStateName_ofList {cs : List Char} (h : isStateName cs = true) :
    IsStateName (String.ofList cs) := by
  cases cs with
  | nil => simp [isStateName] at h
  | cons c rest =>
    simp only [isStateName, Bool.and_eq_true, List.all_eq_true] at h
    refine ⟨c, rest, by simp, h.1, ?_⟩
    intro x hx
    simpa [isNameChar, or_assoc] using h.2 x hx

/-- A mention of a node starts with a name, and its form follows the name directly. -/
theorem readNode_ok {cs rest : List Char} {ref : NodeRef} (h : readNode cs = .ok (ref, rest)) :
    isStateName (readName (trimStart cs)).1 = true ∧
      ref.id = String.ofList (readName (trimStart cs)).1 ∧
      readForm ref.id (readName (trimStart cs)).2 = .ok (ref.form, rest) := by
  simp only [readNode] at h
  split at h
  · cases h
  · split at h
    · cases h
    · rename_i hname
      split at h
      · cases h
      · rename_i form rest' hf
        simp only [Except.ok.injEq, Prod.mk.injEq] at h
        obtain ⟨rfl, rfl⟩ := h
        exact ⟨by simpa using hname, rfl, hf⟩

theorem isStateName_of_readNode {cs rest : List Char} {ref : NodeRef}
    (h : readNode cs = .ok (ref, rest)) : IsStateName ref.id := by
  obtain ⟨hname, hid, -⟩ := readNode_ok h
  rw [hid]
  exact isStateName_ofList hname

/-- Behind a node the line ends, or an arrow and another node follow. -/
theorem readEdges_ok {line : Option Int} {source : NodeRef} {cs : List Char}
    {ss : List Statement} (h : readEdges line source cs = .ok ss) :
    (trimStart cs = [] ∧ ss = []) ∨
    ∃ label arrow behind target rest more,
      readArrow cs = .ok (label, arrow, behind) ∧ readNode behind = .ok (target, rest) ∧
      readEdges line target rest = .ok more ∧
      ss = .edge source target label arrow line :: more := by
  rw [readEdges] at h
  split at h
  · rename_i hend
    exact .inl ⟨by simpa using hend, by simpa using h.symm⟩
  · split at h
    · cases h
    · rename_i label arrow behind ha
      split at h
      · cases h
      · split at h
        · cases h
        · rename_i target rest hn
          split at h
          · cases h
          · rename_i more hm
            simp only [Except.ok.injEq] at h
            exact .inr ⟨label, arrow, behind, target, rest, more, ha, hn, hm, h.symm⟩

/-- The target of each edge is the source of the next, so one state name at the front is enough. -/
theorem named_of_readEdges {line : Option Int} {source : NodeRef} {cs : List Char}
    {ss : List Statement} (hs : IsStateName source.id) (h : readEdges line source cs = .ok ss) :
    ∀ s ∈ ss, s.Named := by
  obtain ⟨-, rfl⟩ | ⟨label, arrow, behind, target, rest, more, ha, hn, hm, rfl⟩ := readEdges_ok h
  · simp
  · have ht := isStateName_of_readNode hn
    intro s hmem
    rcases List.mem_cons.mp hmem with rfl | hmem
    · simp [Named, mentioned, hs, ht]
    · exact named_of_readEdges ht hm s hmem
termination_by cs.length
decreasing_by
  have := length_of_readArrow ha
  have := length_of_readNode hn
  omega

theorem readDirective_ok {line : Option Int} {id : String} {cs : List Char} {ss : List Statement}
    (h : readDirective line id cs = .ok ss) :
    ∃ shape classes, ss = [.style id shape classes line] := by
  simp only [readDirective] at h
  split at h
  · cases h
  · split at h
    · cases h
    · simp only [Except.ok.injEq] at h
      exact ⟨_, _, h.symm⟩

/-- A chain is a node with a directive, with edges, or alone. -/
theorem readChain_ok {line : Option Int} {cs : List Char} {ss : List Statement}
    (h : readChain line cs = .ok ss) :
    ∃ first rest, readNode cs = .ok (first, rest) ∧
      ((∃ inner, rest = '@' :: '\x7b' :: inner ∧ readDirective line first.id inner = .ok ss) ∨
       (readEdges line first rest = .ok [] ∧ ss = [.node first line]) ∨
       readEdges line first rest = .ok ss) := by
  simp only [readChain] at h
  split at h
  · cases h
  · rename_i first rest hn
    refine ⟨first, rest, hn, ?_⟩
    split at h
    · exact .inl ⟨_, rfl, h⟩
    · split at h
      · cases h
      · rename_i he
        exact .inr (.inl ⟨he, by simpa using h.symm⟩)
      · rename_i edges he
        rw [he]
        exact .inr (.inr h)

theorem named_of_readChain {line : Option Int} {cs : List Char} {ss : List Statement}
    (h : readChain line cs = .ok ss) : ∀ s ∈ ss, s.Named := by
  obtain ⟨first, rest, hn, ⟨inner, -, hd⟩ | ⟨-, rfl⟩ | he⟩ := readChain_ok h
  · have hfirst := isStateName_of_readNode hn
    obtain ⟨shape, classes, rfl⟩ := readDirective_ok hd
    simpa [Named, mentioned] using hfirst
  · simpa [Named, mentioned] using isStateName_of_readNode hn
  · exact named_of_readEdges (isStateName_of_readNode hn) he

theorem readClassDef_ok {line : Option Int} {cs : List Char} {ss : List Statement}
    (h : readClassDef line cs = .ok ss) : ∃ name styles, ss = [.classDef name styles line] := by
  simp only [readClassDef] at h
  split at h
  · cases h
  · split at h
    · cases h
    · simp only [Except.ok.injEq] at h
      exact ⟨_, _, h.symm⟩

theorem readAssignment_ok {line : Option Int} {cs : List Char} {ss : List Statement}
    (h : readAssignment line cs = .ok ss) :
    ∃ (ids : List (List Char)) (className : String), (∀ id ∈ ids, isStateName id = true) ∧
      ss = [.assign (ids.map String.ofList) className line] := by
  simp only [readAssignment] at h
  split at h
  · cases h
  · split at h
    · cases h
    · split at h
      · cases h
      · rename_i hall
        simp only [Except.ok.injEq] at h
        exact ⟨_, _, by simpa using hall, h.symm⟩

theorem named_of_readAssignment {line : Option Int} {cs : List Char} {ss : List Statement}
    (h : readAssignment line cs = .ok ss) : ∀ s ∈ ss, s.Named := by
  obtain ⟨ids, className, hids, rfl⟩ := readAssignment_ok h
  intro s hs id hid
  obtain rfl := List.mem_singleton.mp hs
  obtain ⟨cs, hcs, rfl⟩ := List.mem_map.mp hid
  exact isStateName_ofList (hids cs hcs)

/-- A line is empty, a class definition, a class assignment or a chain. -/
theorem read_ok {line : Option Int} {cs : List Char} {ss : List Statement}
    (h : read line cs = .ok ss) :
    (lineBody cs = [] ∧ ss = []) ∨
    (∃ rest, classDefBody? (lineBody cs) = some rest ∧ readClassDef line rest = .ok ss) ∨
    (∃ rest, assignmentBody? (lineBody cs) = some rest ∧ readAssignment line rest = .ok ss) ∨
    readChain line (lineBody cs) = .ok ss := by
  simp only [read] at h
  split at h
  · rename_i hend
    exact .inl ⟨by simpa using hend, by simpa using h.symm⟩
  · split at h
    · rename_i rest hc
      exact .inr (.inl ⟨rest, hc, h⟩)
    · split at h
      · rename_i rest ha
        exact .inr (.inr (.inl ⟨rest, ha, h⟩))
      · exact .inr (.inr (.inr h))

theorem named_of_read {line : Option Int} {cs : List Char} {ss : List Statement}
    (h : read line cs = .ok ss) : ∀ s ∈ ss, s.Named := by
  obtain ⟨-, rfl⟩ | ⟨rest, -, hc⟩ | ⟨rest, -, ha⟩ | hch := read_ok h
  · simp
  · obtain ⟨name, styles, rfl⟩ := readClassDef_ok hc
    simp [Named, mentioned]
  · exact named_of_readAssignment ha
  · exact named_of_readChain hch

end Statement

namespace Block

/-- A line gives statements only when it is read as one. -/
theorem readLine_statements (depth n : Nat) (raw : List Char) :
    (readLine depth n raw).statements = [] ∨
      Statement.read (some n) (trim raw) = .ok (readLine depth n raw).statements := by
  unfold readLine
  dsimp only
  split_ifs
  · exact .inl rfl
  · exact .inl rfl
  · exact .inl rfl
  · exact .inl rfl
  · cases hr : Statement.read (some (n : Int)) (trim raw) with
    | ok ss => exact .inr rfl
    | error e => exact .inl rfl

theorem named_of_readLines (depth : Nat) (ls : List (Nat × List Char)) :
    ∀ s ∈ (readLines depth ls).1, s.Named := by
  induction ls generalizing depth with
  | nil => simp [readLines]
  | cons l rest ih =>
    obtain ⟨n, raw⟩ := l
    intro s hs
    rcases List.mem_append.mp hs with here | more
    · rcases readLine_statements depth n raw with hnil | hread
      · simp [hnil] at here
      · exact Statement.named_of_read hread s here
    · exact ih _ s more

/-- Whatever the lines of a block are, its statements mention state names only. -/
theorem named_of_read (b : Block) : ∀ s ∈ b.read.1, s.Named := named_of_readLines 0 b.lines

end Block

end FlowMachine
