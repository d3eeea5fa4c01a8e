import FlowMachine.Proofs.Diagram.Extents
import FlowMachine.Proofs.Diagram.Trails

/-!
# Keywords in front of edges

A line of a block is looked at for a keyword before it is read, and a keyword ends where a word
does. A hyphen ends a word but not a name. So a line that draws edges is taken for another statement
exactly when the name at its front is a keyword or goes on behind one with a hyphen; every other
such line gives its edges, inside a subgraph and out of it.
-/
namespace FlowMachine

open FlowMachine.Text

namespace Text

/-! ## Characters -/

theorem isWord_of_isBlank {c : Char} (h : isBlank c = true) : isWord c = false := by
  have hall : ∀ i ∈ blankIntervals, ∀ n ∈ List.range' i.1 (i.2 + 1 - i.1),
      isWord (Char.ofNat n) = false := by
    decide +kernel
  obtain ⟨i, hi, hc⟩ := List.any_eq_true.mp h
  have hmem : c.toNat ∈ List.range' i.1 (i.2 + 1 - i.1) := by
    rw [Bool.and_eq_true, decide_eq_true_iff, decide_eq_true_iff] at hc
    rw [List.mem_range'_1]
    omega
  have hother := hall i hi c.toNat hmem
  rwa [Char.ofNat_toNat] at hother

end Text

namespace Statement

theorem isWord_of_isBracket {c : Char} (h : isBracket c = true) : isWord c = false := by
  have hall : ['(', ')', '[', ']', '{', '}'].all (!isWord ·) = true := by decide
  simpa using List.all_eq_true.mp hall c (List.contains_iff_mem.mp h)

/-- A hyphen is the one character of names that ends a word. -/
theorem isWord_iff_of_isNameChar {c : Char} (h : isNameChar c = true) :
    isWord c = false ↔ c = '-' := by
  have hascii := toNat_of_isNameChar h
  revert h
  exact forall_ascii (P := fun c => isNameChar c = true → (isWord c = false ↔ c = '-'))
    (by decide) hascii

/-! ## The front of a line that draws edges -/

theorem read_trim (place : Option Int) (cs : List Char) : read place (trim cs) = read place cs := by
  have hbody : lineBody (trim cs) = lineBody cs := by rw [lineBody, lineBody, trim_trim]
  rw [read, read, hbody]

theorem isPrefix_lineBody (cs : List Char) : lineBody cs <+: trim cs :=
  (isPrefix_dropEndWhile _ _).trans (isPrefix_dropEndWhile _ _)

theorem readName_fst_append_snd (cs : List Char) : (readName cs).1 ++ (readName cs).2 = cs := by
  induction cs with
  | nil => rfl
  | cons c cs ih =>
    rw [readName]
    split_ifs
    · rw [List.cons_append, ih]
    · rfl

theorem head?_of_readArrow {cs : List Char} {found : String × Arrow × List Char}
    (h : readArrow cs = .ok found) : (trimStart cs).head? = some '-' := by
  unfold readArrow at h
  split at h
  · rename_i hstart
    rw [hstart, List.head?_cons]
  · rename_i hstart
    rw [hstart, List.head?_cons]
  · rename_i hstart
    rw [hstart, List.head?_cons]
  · cases h

/-- Between a name and an arrow stand a form or blanks, so the name ends where a word does. -/
theorem exists_head?_of_readArrow {id : String} {cs rest : List Char}
    {form : Option (Shape × String)}
    {found : String × Arrow × List Char} (hform : readForm id cs = .ok (form, rest))
    (harrow : readArrow rest = .ok found) : ∃ c ∈ cs.head?, isWord c = false := by
  by_cases hbracket : ∃ c ∈ cs.head?, isBracket c = true
  · obtain ⟨c, hc, hopens⟩ := hbracket
    exact ⟨c, hc, isWord_of_isBracket hopens⟩
  · have hnone : bracketAt? cs = none := by
      refine bracketAt?_eq_none fun c hc => ?_
      by_contra hopens
      exact hbracket ⟨c, hc, by simpa using hopens⟩
    obtain rfl : cs = rest := by
      simp only [readForm, hnone, Except.ok.injEq, Prod.mk.injEq] at hform
      exact hform.2
    have hstart := head?_of_readArrow harrow
    cases cs with
    | nil => simp [trimStart] at hstart
    | cons c cs =>
      refine ⟨c, rfl, ?_⟩
      by_cases hblank : isBlank c = true
      · exact isWord_of_isBlank hblank
      · rw [trimStart_cons cs (by simpa using hblank)] at hstart
        obtain rfl : c = '-' := by simpa using hstart
        decide

variable {place line : Option Int} {cs : List Char} {source target : NodeRef} {label : String}
    {arrow : Arrow}
  {more : List Statement}

/-- A line that draws edges starts with the name of the first node, which ends where a word does. -/
theorem exists_behind_of_read_edge
    (h : read place cs = .ok (.edge source target label arrow line :: more)) :
    IsStateName source.id ∧ ∃ c rest, trim cs = source.id.toList ++ c :: rest ∧
      isWord c = false := by
  obtain ⟨-, hnil⟩ | ⟨rest, -, hc⟩ | ⟨rest, -, ha⟩ | hchain := read_ok h
  · cases hnil
  · obtain ⟨name, styles, hss⟩ := readClassDef_ok hc
    cases hss
  · obtain ⟨ids, className, -, hss⟩ := readAssignment_ok ha
    cases hss
  · obtain ⟨first, rest, hnode, ⟨inner, -, hd⟩ | ⟨-, hss⟩ | hedges⟩ := readChain_ok hchain
    · obtain ⟨shape, classes, hss⟩ := readDirective_ok hd
      cases hss
    · cases hss
    · obtain ⟨-, hnil⟩ | ⟨_, _, _, _, _, _, harrow, -, -, hss⟩ := readEdges_ok hedges
      · cases hnil
      · cases hss
        refine ⟨isStateName_of_readNode hnode, ?_⟩
        obtain ⟨-, hid, hform⟩ := readNode_ok hnode
        obtain ⟨c, hhead, hc⟩ := exists_head?_of_readArrow hform harrow
        obtain ⟨tail, htail⟩ := List.head?_eq_some_iff.mp hhead
        obtain ⟨back, hback⟩ := isPrefix_lineBody cs
        have hstart := trimStart_of_isPrefix (isPrefix_lineBody cs) (trimStart_trim cs)
        have hwhole := readName_fst_append_snd (lineBody cs)
        rw [hstart] at hid htail
        refine ⟨c, tail ++ back, ?_, hc⟩
        calc trim cs = lineBody cs ++ back := hback.symm
          _ = source.id.toList ++ (c :: tail) ++ back := by
            rw [hid, String.toList_ofList, ← htail, hwhole]
          _ = source.id.toList ++ c :: (tail ++ back) := List.append_assoc _ _ _

end Statement

namespace Block

/-! ## Keywords -/

/-- The words that keep a line from being read when they stand at its front. -/
def reserved : List String := "subgraph" :: ignoredKeywords

/-- The name is the word or goes on behind it with a hyphen. -/
def Leads (word name : String) : Prop := name = word ∨ word.toList ++ ['-'] <+: name.toList

instance (word name : String) : Decidable (Leads word name) := inferInstanceAs (Decidable (_ ∨ _))

/-- A reserved word leads the name. -/
def IsReserved (name : String) : Prop := ∃ word ∈ reserved, Leads word name

instance : DecidablePred IsReserved := fun _ => inferInstanceAs (Decidable (∃ word ∈ reserved, _))

/-- A word made of letters is found in front of a name exactly when it leads the name. -/
theorem isSome_afterWord?_iff {word name : String} {c : Char} {rest : List Char}
    (hword : ∀ x ∈ word.toList, x.isAlpha = true) (hname : IsStateName name)
    (hc : isWord c = false) :
    (afterWord? word (name.toList ++ c :: rest)).isSome = true ↔ Leads word name := by
  simp only [Option.isSome_iff_exists, afterWord?_eq_some_iff]
  constructor
  · rintro ⟨behind, hsplit, hends⟩
    rcases List.append_eq_append_iff.mp hsplit with ⟨more, hlong, hbehind⟩ | ⟨more, hshort, hbehind⟩
    · cases more with
      | nil => exact .inl (String.toList_inj.mp (by simpa using hlong.symm))
      | cons x more =>
        obtain ⟨rfl, -⟩ := List.cons.inj hbehind
        have hletter := hword c (by simp [hlong])
        have hchar : Statement.isNameChar c = true := by
          simp [Statement.isNameChar, Char.isAlphanum, hletter]
        obtain rfl := (Statement.isWord_iff_of_isNameChar hchar).mp hc
        exact absurd hletter (by decide)
    · cases more with
      | nil => exact .inl (String.toList_inj.mp (by simpa using hshort))
      | cons x more =>
        have hx : isWord x = false := by simpa [hbehind, wordEnds] using hends
        have hchar := Statement.isNameChar_of_isStateName hname x (by simp [hshort])
        obtain rfl := (Statement.isWord_iff_of_isNameChar hchar).mp hx
        exact .inr ⟨more, by simp [hshort]⟩
  · rintro (rfl | ⟨more, hmore⟩)
    · exact ⟨c :: rest, rfl, by simp [wordEnds, hc]⟩
    · have hends : wordEnds ('-' :: (more ++ c :: rest)) = true := rfl
      exact ⟨'-' :: (more ++ c :: rest), by simp [← hmore], hends⟩

/-! ## Reading lines -/

/-- The depth of open subgraphs behind lines. -/
def depthBehind (depth : Nat) (ls : List (Nat × List Char)) : Nat :=
  ls.foldl (fun depth l => (readLine depth l.1 l.2).depth) depth

theorem readLines_append (depth : Nat) (front back : List (Nat × List Char)) :
    (readLines depth (front ++ back)).1 =
      (readLines depth front).1 ++ (readLines (depthBehind depth front) back).1 := by
  induction front generalizing depth with
  | nil => rfl
  | cons l rest ih => simp [readLines, depthBehind, ih]

section Edges

variable {n : Nat} {raw : List Char} {source target : NodeRef} {label : String} {arrow : Arrow}
  {line : Option Int} {more : List Statement}

/-- A line that starts with a state name is neither empty nor a comment. -/
theorem not_isComment_of_isStateName {name : String} (hname : IsStateName name) (rest : List Char) :
    ((name.toList ++ rest).isEmpty || isComment (name.toList ++ rest)) = false := by
  obtain ⟨first, more, hid, hletter, -⟩ := hname
  have hmark (mark : Char) (hother : mark.isAlpha = false) : mark ≠ first := by
    rintro rfl
    simp [hletter] at hother
  simp [hid, isComment, List.isPrefixOf, hmark '%' rfl, hmark '/' rfl, hmark '#' rfl]

/-- Nor does such a line close a subgraph, if its name ends where a word does. -/
theorem ne_end_of_isWord {c : Char} (hc : isWord c = false) (front rest : List Char) :
    front ++ c :: rest ≠ "end".toList := by
  have hwords : "end".toList.all isWord = true := by decide
  intro hend
  have hmem : c ∈ "end".toList := by simp [← hend]
  simp [List.all_eq_true.mp hwords c hmem] at hc

/-- Whether a line that draws edges is read, at whatever depth. -/
theorem readLine_of_read_edge (depth : Nat)
    (h : Statement.read (some n) raw = .ok (.edge source target label arrow line :: more)) :
    (¬ IsReserved source.id →
      readLine depth n raw =
      { depth, statements := .edge source target label arrow line :: more }) ∧
    (IsReserved source.id → (readLine depth n raw).statements = [] ∧
      (readLine depth n raw).depth = if Leads "subgraph" source.id then depth + 1 else depth) := by
  obtain ⟨hname, c, rest, htrim, hc⟩ := Statement.exists_behind_of_read_edge h
  have hread := (Statement.read_trim (some (n : Int)) raw).trans h
  have hword (word : String) (hmem : word ∈ reserved) :
      (afterWord? word (trim raw)).isSome = true ↔ Leads word source.id := by
    have hletters : (reserved.all fun word => word.toList.all Char.isAlpha) = true := by decide
    rw [htrim]
    exact isSome_afterWord?_iff (List.all_eq_true.mp (List.all_eq_true.mp hletters word hmem)) hname
      hc
  have hignored : (ignoredKeywords.any fun word => (afterWord? word (trim raw)).isSome) = true ↔
      ∃ word ∈ ignoredKeywords, Leads word source.id := by
    rw [List.any_eq_true]
    exact exists_congr fun word => and_congr_right fun hmem =>
      hword word (List.mem_cons_of_mem _ hmem)
  have hplain : ((trim raw).isEmpty || isComment (trim raw)) = false := by
    rw [htrim]
    exact not_isComment_of_isStateName hname _
  have hend : (trim raw == "end".toList) = false := by
    rw [htrim, beq_eq_false_iff_ne]
    exact ne_end_of_isWord hc _ _
  have hsubgraph := hword "subgraph" List.mem_cons_self
  have hcases : IsReserved source.id ↔
      Leads "subgraph" source.id ∨ ∃ word ∈ ignoredKeywords, Leads word source.id := by
    simp only [IsReserved, reserved, List.exists_mem_cons_iff]
  unfold readLine
  simp only [hplain, hend, hsubgraph, hignored, hcases, hread, Bool.false_and,
    Bool.false_eq_true, if_false]
  by_cases hsub : Leads "subgraph" source.id
  · simp [hsub]
  · by_cases hpassed : ∃ word ∈ ignoredKeywords, Leads word source.id
    · simp [hsub, hpassed]
    · simp [hsub, hpassed]

/-- A line that draws edges gives them in its place among the statements of its block, unless a
reserved word leads the name at its front. Then it gives nothing, and the lines behind it are read
as without it, inside one more subgraph if the word is `subgraph`. -/
theorem read_around_edges {b : Block} {before after : List (Nat × List Char)}
    (hb : b.lines = before ++ (n, raw) :: after)
    (h : Statement.read (some n) raw = .ok (.edge source target label arrow line :: more)) :
    (¬ IsReserved source.id → b.read.1 = (readLines 0 before).1 ++
      (.edge source target label arrow line :: more ++
      (readLines (depthBehind 0 before) after).1)) ∧
    (IsReserved source.id → b.read.1 = (readLines 0 before).1 ++
      (readLines (if Leads "subgraph" source.id then depthBehind 0 before + 1
      else depthBehind 0 before) after).1) := by
  obtain ⟨hfree, htaken⟩ := readLine_of_read_edge (depthBehind 0 before) h
  have hread : b.read.1 = (readLines 0 before).1 ++
      ((readLine (depthBehind 0 before) n raw).statements ++
        (readLines (readLine (depthBehind 0 before) n raw).depth after).1) := by
    rw [read, hb, readLines_append, readLines]
  rw [hread]
  constructor
  · intro hname
    rw [hfree hname]
  · intro hname
    obtain ⟨hnone, hdepth⟩ := htaken hname
    rw [hnone, hdepth, List.nil_append]

/-- A block with a subgraph, and in it an edge from a node whose name starts like a keyword. -/
def styled : Block where
  startLine := 1
  keyword := "flowchart"
  direction := "TD"
  lines := [(2, "subgraph x".toList), (3, "styled-page --> B".toList), (4, "end".toList)]

theorem read_around_edges_styled :
    Statement.read (some (3 : Nat)) "styled-page --> B".toList =
        .ok [.edge ⟨"styled-page", none⟩ ⟨"B", none⟩ "" .plain (some 3)] ∧
      ¬ IsReserved "styled-page" ∧
      styled.read.1 = [.edge ⟨"styled-page", none⟩ ⟨"B", none⟩ "" .plain (some 3)] := by
  have hread : Statement.read (some (3 : Nat)) "styled-page --> B".toList =
      .ok [.edge ⟨"styled-page", none⟩ ⟨"B", none⟩ "" .plain (some 3)] := by decide +kernel
  have hfree : ¬ IsReserved "styled-page" := by decide
  have hlines : styled.lines = [(2, "subgraph x".toList)] ++
      (3, "styled-page --> B".toList) :: [(4, "end".toList)] := rfl
  have hall := (read_around_edges hlines hread).1 hfree
  exact ⟨hread, hfree, hall.trans (by decide)⟩

/-- A line that draws an edge from a node with a name that is no reserved word, and gives its block
nothing. -/
theorem exists_edges_passed_over :
    ∃ (cs : List Char) (b : Block) (n : Nat) (raw : List Char) (source target : NodeRef),
      b ∈ ofText cs ∧ (n, raw) ∈ b.lines ∧ source.id ∉ reserved ∧
      Statement.read (some n) raw = .ok [.edge source target "" .plain (some n)] ∧
      b.read.1.filter (·.line == some (n : Int)) = [] := by
  refine ⟨"flowchart TD\nA --> B\nstyle-guide --> B".toList,
    ⟨1, "flowchart", "TD", [(2, "A --> B".toList), (3, "style-guide --> B".toList)]⟩, 3,
    "style-guide --> B".toList, ⟨"style-guide", none⟩, ⟨"B", none⟩, ?_⟩
  decide +kernel

end Edges

end Block

end FlowMachine
