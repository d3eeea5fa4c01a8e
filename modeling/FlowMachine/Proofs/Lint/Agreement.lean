import FlowMachine.Proofs.Lint.Forms

/-!
# Transitions that the lint lets pass

When the lint has no error for a text, each line that it checks as a transition is a chain of state
names. Such a line can be read exactly when none of its forms is foreign and it does not start like
a class definition, and then reading draws one edge from each name of the chain to the next. Left
aside are forms between double square brackets with a single closing one inside, where reading
leaves the lint's path and may yet come out at the same names.
-/
namespace FlowMachine.Lint

open FlowMachine.Text

/-! ## Chains -/

/-- The texts behind the names of the links, as the lint comes to them. -/
def linkTails (cs : List Char) : List (List Char) :=
  match _ha : readArrow? cs with
  | none => []
  | some (_, behind) =>
    match _hn : readName? behind with
    | none => []
    | some (_, rest) => (readHyphenated behind).2 :: linkTails rest
termination_by cs.length
decreasing_by
  have := length_of_readArrow? _ha
  have := length_of_readName? _hn
  omega

/-- The texts behind the names of a line. -/
def tails (line : List Char) : List (List Char) :=
  (readHyphenated line).2 :: linkTails (skipForm (readHyphenated line).2)

theorem linkTails_nil : linkTails [] = [] := by
  rw [linkTails]
  rfl

theorem linkTails_of_readArrow? {cs behind name rest : List Char} {label : Option (List Char)}
    (harrow : readArrow? cs = some (label, behind))
    (hfound : readName? behind = some (name, rest)) :
    linkTails cs = (readHyphenated behind).2 :: linkTails rest := by
  rw [linkTails]
  split
  · simp_all
  · rename_i harrow'
    obtain ⟨rfl, rfl⟩ := Prod.mk.inj (Option.some.inj (harrow.symm.trans harrow'))
    split
    · simp_all
    · rename_i hfound'
      obtain ⟨-, rfl⟩ := Prod.mk.inj (Option.some.inj (hfound.symm.trans hfound'))
      rfl

section Mention

variable {cs behind name rest : List Char} {next : Chain}

/-- Both find the same name in front of what the lint takes for the rest of a chain. -/
theorem readName_eq_readHyphenated
    (hlinks : readLinks? (skipForm (readHyphenated behind).2) = some next) :
    Statement.readName behind = readHyphenated behind := by
  obtain ⟨hwhole, hchars, harrow⟩ := readHyphenated_spec behind
  have hends : Statement.EndsName (readHyphenated behind).2 := by
    by_cases hopen : ∃ c ∈ (readHyphenated behind).2.head?, isOpener c = true
    · obtain ⟨c, hc, hopener⟩ := hopen
      refine .inl fun x hx => ?_
      obtain rfl := Option.mem_unique hc hx
      rw [isOpener, List.contains_iff_mem] at hopener
      have hall : ['(', '[', '{', '>'].all (!Statement.isNameChar ·) = true := by decide
      simpa using List.all_eq_true.mp hall c hopener
    · have hnone : ∀ c ∈ (readHyphenated behind).2.head?, isOpener c = false := by
        intro c hc
        by_contra hopener
        exact hopen ⟨c, hc, by simpa using hopener⟩
      rw [skipForm_eq_self hnone] at hlinks
      exact (endsNode_of_readLinks? hlinks).endsName
  have hread := Statement.readName_append hchars harrow hends
  rwa [hwhole] at hread

/-- A node is read from the lint's name and the form behind it. -/
theorem readForm_of_readNode (hstart : trimStart cs = behind)
    (hfound : readName? behind = some (name, rest))
    (hlinks : readLinks? rest = some next) {ref : NodeRef} {after : List Char}
    (hread : Statement.readNode cs = .ok (ref, after)) :
    Statement.readForm ref.id (readHyphenated behind).2 = .ok (ref.form, after) := by
  obtain ⟨-, -, rfl⟩ := readName?_spec hfound
  obtain ⟨-, -, hform⟩ := Statement.readNode_ok hread
  rwa [hstart, readName_eq_readHyphenated hlinks] at hform

/-- The form ends where the lint's does. -/
theorem rest_of_readForm (hfound : readName? behind = some (name, rest))
    (hlinks : readLinks? rest = some next) (hforeign : isForeign (readHyphenated behind).2 = false)
    {id : String} {form : Option (Shape × String)} {after : List Char}
    (hform : Statement.readForm id (readHyphenated behind).2 = .ok (form, after)) :
    after = rest := by
  obtain ⟨-, -, rfl⟩ := readName?_spec hfound
  obtain ⟨found, hread⟩ := readForm_skipForm id hlinks hforeign
  rw [hform] at hread
  exact (Prod.mk.inj (Except.ok.inj hread)).2

theorem readNode_of_not_foreign (hstart : trimStart cs = behind)
    (hfound : readName? behind = some (name, rest)) (hlinks : readLinks? rest = some next)
    (hname : Statement.isStateName name = true)
    (hforeign : isForeign (readHyphenated behind).2 = false) :
    ∃ form, Statement.readNode cs = .ok (⟨String.ofList name, form⟩, rest) := by
  obtain ⟨-, rfl, rfl⟩ := readName?_spec hfound
  obtain ⟨form, hform⟩ := readForm_skipForm (String.ofList (readHyphenated behind).1)
    hlinks hforeign
  have hsome : (readHyphenated behind).1.isEmpty = false := by
    rw [List.isEmpty_eq_false_iff]
    intro hnil
    rw [hnil] at hname
    cases hname
  refine ⟨form, ?_⟩
  simp only [Statement.readNode, hstart, readName_eq_readHyphenated hlinks, hsome, hname, hform]
  rfl

end Mention

/-- The statements draw one edge from each name to the next. -/
def Draws : List String → List Statement → Prop
  | _ :: [], [] => True
  | a :: b :: names, .edge source target _ _ _ :: edges =>
    source.id = a ∧ target.id = b ∧ Draws (b :: names) edges
  | _, _ => False

/-- Links without foreign forms are read, and each arrow draws an edge to the lint's next name. -/
theorem readEdges_of_readLinks? (line : Option Int) (source : NodeRef) {cs : List Char}
    {more : Chain}
    (h : readLinks? cs = some more)
    (hnames : ∀ name ∈ more.names, Statement.isStateName name = true)
    (hforeign : ∀ tail ∈ linkTails cs, isForeign tail = false) :
    ∃ edges, Statement.readEdges line source cs = .ok edges ∧
      Draws (source.id :: more.names.map String.ofList) edges := by
  obtain ⟨rfl, hend⟩ | ⟨label, behind, name, rest, next, harrow, hfound, hlinks, hmore⟩ :=
    readLinks?_cases h
  · refine ⟨[], ?_, by simp [hend, Draws]⟩
    rw [Statement.readEdges]
    rfl
  · rw [linkTails_of_readArrow? harrow hfound] at hforeign
    rw [hmore] at hnames
    obtain ⟨hname, hnames⟩ := List.forall_mem_cons.mp hnames
    obtain ⟨hhere, hforeign⟩ := List.forall_mem_cons.mp hforeign
    obtain ⟨found, arrow, after, hread, hstart⟩ :=
      readArrow_of_readArrow? harrow (readName?_spec hfound).1
    obtain ⟨form, hnode⟩ := readNode_of_not_foreign hstart hfound hlinks hname hhere
    obtain ⟨edges, hedges, hdraws⟩ :=
      readEdges_of_readLinks? line ⟨String.ofList name, form⟩ hlinks hnames hforeign
    refine ⟨_, Statement.readEdges_link hread hnode hedges, ?_⟩
    rw [hmore]
    exact ⟨rfl, rfl, hdraws⟩
termination_by cs.length
decreasing_by
  have := length_of_readArrow? harrow
  have := length_of_readName? hfound
  omega

/-- Behind a foreign form the line cannot be read. -/
theorem not_foreign_of_readEdges {line : Option Int} {source : NodeRef} {id : String}
    {tail rest : List Char} {form : Option (Shape × String)} {edges : List Statement}
    (hcrossed : isCrossed tail = false) (hform : Statement.readForm id tail = .ok (form, rest))
    (hedges : Statement.readEdges line source rest = .ok edges) : isForeign tail = false := by
  by_contra hforeign
  obtain ⟨c, cs, rfl, hc⟩ := readForm_foreign (by simpa using hforeign) hcrossed hform
  have hstart : trimStart (c :: cs) = c :: cs := by
    rcases hc with rfl | rfl <;> exact trimStart_cons _ (by decide)
  obtain ⟨hend, -⟩ | ⟨label, arrow, behind, target, rest, more, harrow, -⟩ :=
    Statement.readEdges_ok hedges
  · rw [hstart] at hend
    cases hend
  · rw [Statement.readArrow, hstart] at harrow
    rcases hc with rfl | rfl <;> cases harrow

/-- Links that can be read have no foreign forms. -/
theorem not_foreign_of_readLinks? {line : Option Int} {source : NodeRef} {cs : List Char}
    {more : Chain}
    {edges : List Statement} (h : readLinks? cs = some more)
    (hcrossed : ∀ tail ∈ linkTails cs, isCrossed tail = false)
    (hedges : Statement.readEdges line source cs = .ok edges) :
    ∀ tail ∈ linkTails cs, isForeign tail = false := by
  obtain ⟨rfl, -⟩ | ⟨label, behind, name, rest, next, harrow, hfound, hlinks, -⟩ :=
    readLinks?_cases h
  · simp [linkTails_nil]
  · rw [linkTails_of_readArrow? harrow hfound] at hcrossed ⊢
    obtain ⟨hhere, hcrossed⟩ := List.forall_mem_cons.mp hcrossed
    obtain ⟨found, arrow, after, hread, hstart⟩ :=
      readArrow_of_readArrow? harrow (readName?_spec hfound).1
    obtain ⟨hend, -⟩ | ⟨_, _, _, target, rest', more', hread', hnode, hmore, -⟩ :=
      Statement.readEdges_ok hedges
    · rw [Statement.readArrow, hend] at hread
      cases hread
    · cases hread.symm.trans hread'
      have hform := readForm_of_readNode hstart hfound hlinks hnode
      have hforeign := not_foreign_of_readEdges hhere hform hmore
      -- the form ends where the lint's does, so both go on from the same place
      obtain rfl := rest_of_readForm hfound hlinks hforeign hform
      exact List.forall_mem_cons.mpr ⟨hforeign, not_foreign_of_readLinks? hlinks hcrossed hmore⟩
termination_by cs.length
decreasing_by
  have := length_of_readArrow? harrow
  have := length_of_readName? hfound
  omega

/-! ## Lines -/

theorem readChain?_cases {line : List Char} {chain : Chain} (h : readChain? line = some chain) :
    ∃ first rest more, readName? line = some (first, rest) ∧ readLinks? rest = some more ∧
      more.names ≠ [] ∧ chain.names = first :: more.names := by
  rw [readChain?] at h
  split at h
  · cases h
  · rename_i first rest hfound
    split at h
    · cases h
    · rename_i more hlinks
      split_ifs at h with hnone
      refine ⟨first, rest, more, hfound, hlinks, by simpa using hnone, ?_⟩
      rw [← Option.some.inj h]

/-- Behind a word and a blank at the front of a chain there is an arrow. -/
theorem startsArrow_of_behind? {line word rest : List Char} {chain : Chain}
    (h : readChain? line = some chain) (hword : ∀ c ∈ word, Statement.isNameChar c = true)
    (harrowless : IsArrowless word) (hbehind : behind? word line = some rest)
    (hblank : rest.head?.any isBlank = true) : Statement.startsArrow (trimStart rest) = true := by
  obtain ⟨first, after, more, hfound, hlinks, hsome, -⟩ := readChain?_cases h
  have hends : Statement.EndsNode rest := by
    refine .inl fun c hc => ?_
    rw [Option.mem_def.mp hc] at hblank
    exact hblank
  -- the word is the first name, and no form follows it
  obtain ⟨-, -, rfl⟩ := readName?_spec hfound
  have hname := Statement.readName_append hword harrowless hends.endsName
  rw [← behind?_eq_some_iff.mp hbehind, readName_eq_readHyphenated hlinks] at hname
  rw [hname, skipForm_eq_self (isOpener_of_endsNode hends)] at hlinks
  obtain ⟨rfl, hnone⟩ | ⟨_, _, _, _, _, harrow, -⟩ := readLinks?_cases hlinks
  · exact absurd hnone hsome
  · exact startsArrow_of_readArrow? harrow

theorem assignmentBody?_of_readChain? {line : List Char} {chain : Chain}
    (h : readChain? line = some chain) :
    Statement.assignmentBody? line = none := by
  unfold Statement.assignmentBody?
  split
  · rename_i rest hbehind
    split_ifs with hletter
    · rw [Bool.and_eq_true] at hletter
      have hstarts := startsArrow_of_behind? h (List.all_eq_true.mp (by decide))
        (isArrowless_of_not_mem (by decide +kernel)) hbehind
        hletter.1
      rw [Statement.head?_of_startsArrow hstarts] at hletter
      exact absurd hletter.2 (by decide)
    · rfl
  · rfl

/-- A chain that starts like a class definition is not read: it has an arrow where the class should
be. -/
theorem readClassDef_of_readChain? {line rest : List Char} {chain : Chain} (number : Option Int)
    (h : readChain? line = some chain) (hclass : Statement.classDefBody? line = some rest) :
    Statement.readClassDef number rest = .error (.badClassDef "") := by
  unfold Statement.classDefBody? at hclass
  split at hclass
  · rename_i rest' hbehind
    split_ifs at hclass with hblank
    obtain rfl := Option.some.inj hclass
    have hstarts := startsArrow_of_behind? h (List.all_eq_true.mp (by decide))
      (isArrowless_of_not_mem (by decide)) hbehind hblank
    have hnone : (Statement.readName (trimStart rest')).1 = [] := by
      cases hrest : trimStart rest' with
      | nil => rfl
      | cons c cs =>
        rw [hrest] at hstarts
        simp [Statement.readName, hstarts]
    simp [Statement.readClassDef, hnone]
  · cases hclass

/-- What reading needs of a chain: it does not start like a class definition, and no form is
foreign. -/
def IsShared (line : List Char) : Prop :=
  Statement.classDefBody? line = none ∧ ∀ tail ∈ tails line, isForeign tail = false

instance : DecidablePred IsShared := fun _ => inferInstanceAs (Decidable (_ ∧ _))

theorem read_of_shared (number : Option Int) {raw : List Char} {chain : Chain}
    (h : readChain? (Statement.lineBody raw) = some chain)
    (hnames : ∀ name ∈ chain.names, Statement.isStateName name = true)
    (hshared : IsShared (Statement.lineBody raw)) :
    ∃ edges, Statement.read number raw = .ok edges ∧
      Draws (chain.names.map String.ofList) edges := by
  generalize hbody : Statement.lineBody raw = body at h hshared
  obtain ⟨first, rest, more, hfound, hlinks, hsome, hchain⟩ := readChain?_cases h
  obtain ⟨hclass, hforeign⟩ := hshared
  obtain ⟨hplain, -, hrest⟩ := readName?_spec hfound
  rw [hchain] at hnames ⊢
  obtain ⟨hfirst, hnames⟩ := List.forall_mem_cons.mp hnames
  obtain ⟨hhere, hforeign⟩ := List.forall_mem_cons.mp hforeign
  rw [hrest] at hforeign
  obtain ⟨form, hnode⟩ :=
    readNode_of_not_foreign (trimStart_of_isPlain hplain) hfound hlinks hfirst hhere
  obtain ⟨edges, hedges, hdraws⟩ :=
    readEdges_of_readLinks? number ⟨String.ofList first, form⟩ hlinks hnames hforeign
  refine ⟨edges, ?_, hdraws⟩
  have hbare (inner : List Char) : rest ≠ '@' :: '{' :: inner := by
    rintro rfl
    rcases endsNode_of_readLinks? hlinks with hblank | harrow
    · exact absurd (hblank '@' rfl) (by decide)
    · cases harrow
  have hread : Statement.readChain number body = .ok edges := by
    rw [Statement.readChain, hnode]
    dsimp only
    split
    · exact absurd rfl (hbare _)
    · rw [hedges]
      cases edges with
      | nil =>
        cases hnames : more.names with
        | nil => exact absurd hnames hsome
        | cons a names => simp [hnames, Draws] at hdraws
      | cons e edges => rfl
  have hbody' : body.isEmpty = false := by
    cases body with
    | nil => cases hplain
    | cons c cs => rfl
  simp only [Statement.read, hbody, hbody', hclass, assignmentBody?_of_readChain? h, hread]
  rfl

/-- A chain is read from its first node on: no directive stands behind the name. -/
theorem readEdges_of_readChain {number : Option Int} {line : List Char} {chain : Chain}
    {statements : List Statement} (h : readChain? line = some chain)
    (hcrossed : isCrossed (readHyphenated line).2 = false)
    (hread : Statement.readChain number line = .ok statements) :
    ∃ first edges rest, Statement.readForm first.id (readHyphenated line).2 =
      .ok (first.form, rest) ∧
      Statement.readEdges number first rest = .ok edges := by
  obtain ⟨name, after, more, hfound, hlinks, -, -⟩ := readChain?_cases h
  obtain ⟨first, rest, hnode, hrest⟩ := Statement.readChain_ok hread
  have hform :=
    readForm_of_readNode (trimStart_of_isPlain (readName?_spec hfound).1) hfound hlinks hnode
  obtain ⟨inner, rfl, -⟩ | ⟨hedges, -⟩ | hedges := hrest
  · by_cases hforeign : isForeign (readHyphenated line).2 = true
    · obtain ⟨c, cs, hmark, hc⟩ := readForm_foreign hforeign hcrossed hform
      obtain ⟨rfl, -⟩ := List.cons.inj hmark
      rcases hc with hc | hc <;> cases hc
    · obtain rfl := rest_of_readForm hfound hlinks (by simpa using hforeign) hform
      rcases endsNode_of_readLinks? hlinks with hblank | harrow
      · exact absurd (hblank '@' rfl) (by decide)
      · cases harrow
  · exact ⟨first, [], rest, hform, hedges⟩
  · exact ⟨first, statements, rest, hform, hedges⟩

theorem shared_of_read {number : Option Int} {raw : List Char} {chain : Chain}
    {statements : List Statement}
    (h : readChain? (Statement.lineBody raw) = some chain)
    (hcrossed : ∀ tail ∈ tails (Statement.lineBody raw), isCrossed tail = false)
    (hread : Statement.read number raw = .ok statements) : IsShared (Statement.lineBody raw) := by
  obtain ⟨name, after, more, hfound, hlinks, -, -⟩ := readChain?_cases h
  obtain ⟨hplain, -, hafter⟩ := readName?_spec hfound
  have hsome : (Statement.lineBody raw).isEmpty = false := by
    cases hbody : Statement.lineBody raw with
    | nil =>
      rw [hbody] at hplain
      cases hplain
    | cons c cs => rfl
  have hclass : Statement.classDefBody? (Statement.lineBody raw) = none := by
    cases hclass : Statement.classDefBody? (Statement.lineBody raw) with
    | none => rfl
    | some rest =>
      simp [Statement.read, hsome, hclass, readClassDef_of_readChain? number h hclass] at hread
  simp only [Statement.read, hsome, hclass, assignmentBody?_of_readChain? h, Bool.false_eq_true,
    if_false] at hread
  obtain ⟨hhere, hcrossed⟩ := List.forall_mem_cons.mp hcrossed
  obtain ⟨first, edges, rest, hform, hedges⟩ := readEdges_of_readChain h hhere hread
  have hforeign := not_foreign_of_readEdges hhere hform hedges
  obtain rfl := rest_of_readForm hfound hlinks hforeign hform
  rw [hafter] at hcrossed
  refine ⟨hclass, List.forall_mem_cons.mpr ⟨hforeign, ?_⟩⟩
  rw [hafter]
  exact not_foreign_of_readLinks? hlinks hcrossed hedges

/-! ## Texts -/

/-- The line comes to the check of transitions: it is no class definition and no assignment, and it
has an arrow or the start of one. -/
def isTransition (line : List Char) : Bool :=
  (classDef? line).isNone &&
    (occurs "->".toList line || (assignment? line).isNone && hasOpenArrow line)

theorem checkLine_of_isTransition (o : Options) (n : Nat) {line : List Char}
    (h : isTransition line = true) :
    checkLine o n line = checkTransition o n line := by
  simp only [isTransition, Bool.and_eq_true, Bool.or_eq_true, Option.isNone_iff_eq_none] at h
  obtain ⟨hclass, harrow | ⟨hassign, hopen⟩⟩ := h
  · simp only [checkLine, hclass, harrow, if_true, Bool.true_or]
  · simp [checkLine, hclass, hassign, hopen]

/-- The lines of a diagram that are checked as transitions. -/
def Region.transitions (region : Region) : List Line :=
  let lines := content region.lines
  let body := if lines.head?.any (declares ·.2) then lines.tail else lines
  body.filter fun line => !declares line.2 && isTransition (Statement.lineBody line.2)

/-- A region holds lines of the text only. -/
theorem mem_of_fenced (current : Option Region) (lines : List Line) {region : Region}
    (h : region ∈ (fenced current lines).1) {line : Line} (hline : line ∈ region.lines) :
    line ∈ lines ∨ ∃ opened ∈ current, line ∈ opened.lines := by
  fun_induction fenced current lines with
  | case1 => simp at h
  | case2 opened =>
    split_ifs at h with htext
    · obtain rfl := List.mem_singleton.mp h
      exact .inr ⟨_, rfl, hline⟩
    · cases h
  | case3 current n text rest hfence more nested ih =>
    obtain hmem | ⟨opened, hopened, hmem⟩ := ih h
    · exact .inl (List.mem_cons_of_mem _ hmem)
    · cases hopened
      cases hmem
  | case4 n text rest hfence ih =>
    obtain hmem | ⟨opened, hopened, -⟩ := ih h
    · exact .inl (List.mem_cons_of_mem _ hmem)
    · cases hopened
  | case5 n text rest hfence opened hend more htext ih =>
    rcases List.mem_cons.mp h with rfl | h
    · exact .inr ⟨_, rfl, hline⟩
    · obtain hmem | ⟨opened, hopened, -⟩ := ih h
      · exact .inl (List.mem_cons_of_mem _ hmem)
      · cases hopened
  | case6 n text rest hfence opened hend more htext ih =>
    obtain hmem | ⟨opened, hopened, -⟩ := ih h
    · exact .inl (List.mem_cons_of_mem _ hmem)
    · cases hopened
  | case7 n text rest hfence opened hend ih =>
    obtain hmem | ⟨_, hopened, hmem⟩ := ih h
    · exact .inl (List.mem_cons_of_mem _ hmem)
    · cases hopened
      rcases List.mem_append.mp hmem with hmem | hmem
      · exact .inr ⟨_, rfl, hmem⟩
      · obtain rfl := List.mem_singleton.mp hmem
        exact .inl List.mem_cons_self

theorem trim_of_mem_regions {cs : List Char} {region : Region} (h : region ∈ (regions cs).1)
    {line : Line}
    (hline : line ∈ region.lines) : trim line.2 = line.2 := by
  have htrimmed : ∀ l ∈ (numberedLines cs).map fun line =>
      (line.1, trim line.2), trim l.2 = l.2 := by
    intro l hl
    obtain ⟨raw, -, rfl⟩ := List.mem_map.mp hl
    exact trim_trim raw.2
  simp only [regions] at h
  split_ifs at h with hfence
  · obtain hmem | ⟨_, hnone, -⟩ := mem_of_fenced none _ h hline
    · exact htrimmed line hmem
    · cases hnone
  · split at h
    · cases h
    · rename_i first rest hrest
      obtain rfl := List.mem_singleton.mp h
      rw [← hrest] at hline
      exact htrimmed line ((List.dropWhile_sublist _).subset hline)

theorem mem_checkRegion (o : Options) {region : Region} {line : Line}
    (hline : line ∈ region.transitions) :
    ∀ f ∈ checkBodyLine o line, f ∈ checkRegion o region := by
  intro f hf
  have hbody := List.mem_of_mem_filter hline
  rw [checkRegion]
  cases hcontent : content region.lines with
  | nil => simp [hcontent] at hbody
  | cons first rest =>
    simp only [hcontent, List.head?_cons, Option.any_some, List.tail_cons] at hbody
    exact List.mem_append_right _ (List.mem_flatMap.mpr ⟨line, hbody, hf⟩)

/-- Without an error the names of a chain are state names. -/
theorem isStateName_of_checkName {o : Options} {n : Nat} {role : NameRole} {name : List Char}
    (h : ∀ f ∈ checkName o n role name, f.severity ≠ .error) :
    Statement.isStateName name = true := by
  by_contra hbad
  have hfound : ∃ f ∈ checkName o n role name, f.severity = .error := by
    rw [checkName]
    by_cases hempty : name.isEmpty = true
    · rw [if_pos hempty]
      exact ⟨_, List.mem_cons_self, rfl⟩
    · rw [if_neg hempty, if_pos (by simpa using hbad)]
      exact ⟨_, List.mem_cons_self, rfl⟩
  obtain ⟨f, hf, herror⟩ := hfound
  exact h f hf herror

theorem isStateName_of_checkChain {o : Options} {n : Nat} {chain : Chain}
    (h : ∀ f ∈ checkChain o n chain, f.severity ≠ .error) :
    ∀ name ∈ chain.names, Statement.isStateName name = true := by
  obtain ⟨names, labels⟩ := chain
  cases names with
  | nil => simp
  | cons first rest =>
    have hfirst : ∀ f ∈ checkName o n .source first, f.severity ≠ .error := fun f hf =>
      h f (List.mem_append_left _ (List.mem_append_left _ hf))
    have hrest (name : List Char) (hname : name ∈ rest) :
        ∀ f ∈ checkName o n .target name, f.severity ≠ .error := fun f hf =>
      h f
        (List.mem_append_left _ (List.mem_append_right _ (List.mem_flatMap.mpr ⟨name, hname, hf⟩)))
    exact List.forall_mem_cons.mpr ⟨isStateName_of_checkName hfirst,
      fun name hname => isStateName_of_checkName (hrest name hname)⟩

theorem chain_of_checkTransition {o : Options} {n : Nat} {line : List Char}
    (h : ∀ f ∈ checkTransition o n line, f.severity ≠ .error) :
    ∃ chain, readChain? line = some chain ∧
      ∀ name ∈ chain.names, Statement.isStateName name = true := by
  rw [checkTransition] at h
  split_ifs at h with hbalanced
  · exact absurd rfl (h _ List.mem_cons_self)
  · split at h
    · exact absurd rfl (h _ List.mem_cons_self)
    · rename_i chain hchain
      exact ⟨chain, hchain, isStateName_of_checkChain h⟩

/-- In a text without errors each line that is checked as a transition is a chain of state names. -/
theorem chain_of_mem_transitions {o : Options} {text source : String}
    (hclean : (check o text source).errors = []) {region : Region}
    (hregion : region ∈ (regions text.toList).1) {line : Line} (hline : line ∈ region.transitions) :
    ∃ chain, readChain? (Statement.lineBody line.2) = some chain ∧
      ∀ name ∈ chain.names, Statement.isStateName name = true := by
  have hnone : ∀ f ∈ findings o text, f.severity ≠ .error := by
    simpa [check, Report.ofFindings, errorsOf] using hclean
  obtain ⟨hmem, hchecked⟩ := List.mem_filter.mp hline
  simp only [Bool.and_eq_true, Bool.not_eq_true'] at hchecked
  have hcontent : line ∈ content region.lines := by
    split_ifs at hmem
    · exact List.mem_of_mem_tail hmem
    · exact hmem
  have hlines : line ∈ region.lines := List.mem_of_mem_filter hcontent
  have hbody : checkBodyLine o line = checkTransition o line.1 (Statement.lineBody line.2) := by
    rw [← checkLine_of_isTransition o line.1 hchecked.2, checkBodyLine, hchecked.1,
      Statement.lineBody, trim_of_mem_regions hregion hlines]
    rfl
  have hchecks : ∀ f ∈ checkTransition o line.1 (Statement.lineBody line.2),
      f.severity ≠ .error := by
    intro f hf
    rw [← hbody] at hf
    refine hnone f (List.mem_append_right _ ?_)
    exact List.mem_flatMap.mpr ⟨region, hregion, mem_checkRegion o hline f hf⟩
  exact chain_of_checkTransition hchecks

/-- In a text without errors each line that is checked as a transition is a chain of names, and when
nothing in it is foreign to reading, it draws one edge from each name to the next. Otherwise the
line cannot be read, forms with crossed brackets aside. -/
theorem read_transition_of_clean {o : Options} {text source : String}
    (hclean : (check o text source).errors = []) {region : Region}
    (hregion : region ∈ (regions text.toList).1) {line : Line} (hline : line ∈ region.transitions)
    (number : Option Int) :
    ∃ chain, readChain? (Statement.lineBody line.2) = some chain ∧
      (IsShared (Statement.lineBody line.2) →
        ∃ edges, Statement.read number line.2 = .ok edges ∧
        Draws (chain.names.map String.ofList) edges) ∧
      ((∀ tail ∈ tails (Statement.lineBody line.2), isCrossed tail = false) →
        ¬ IsShared (Statement.lineBody line.2) →
        ∃ fault, Statement.read number line.2 = .error fault) := by
  obtain ⟨chain, hchain, hnames⟩ := chain_of_mem_transitions hclean hregion hline
  refine ⟨chain, hchain, read_of_shared number hchain hnames, fun hcrossed hforeign => ?_⟩
  cases hread : Statement.read number line.2 with
  | error fault => exact ⟨fault, rfl⟩
  | ok statements => exact absurd (shared_of_read hchain hcrossed hread) hforeign

/-- A diagram without errors, with one transition that can be read and four that cannot. -/
def sketch : String :=
  "flowchart TD\nMain-Menu((x)) -- go --> B -->|on| C\nA[[x]] --> B\nclassDef -->B\nA((x) -- ) --> B\n" ++
    "A>\"x] -- y\" --> B"

def sketchRegion : Region :=
  ⟨1, [(1, "flowchart TD".toList), (2, "Main-Menu((x)) -- go --> B -->|on| C".toList),
    (3, "A[[x]] --> B".toList), (4, "classDef -->B".toList), (5, "A((x) -- ) --> B".toList),
    (6, "A>\"x] -- y\" --> B".toList)]⟩

theorem sketch_clean : (check {} sketch "").errors = [] ∧ sketchRegion ∈ (regions sketch.toList).1 ∧
    sketchRegion.transitions = sketchRegion.lines.tail := by
  decide +kernel

theorem read_transition_sketch :
    (∃ edges, Statement.read (some 2) "Main-Menu((x)) -- go --> B -->|on| C".toList = .ok edges ∧
      Draws ["Main-Menu", "B", "C"] edges) ∧
    ∃ fault, Statement.read (some 3) "A[[x]] --> B".toList = .error fault := by
  obtain ⟨hclean, hregion, hlines⟩ := sketch_clean
  have hfirst : (2, "Main-Menu((x)) -- go --> B -->|on| C".toList) ∈ sketchRegion.transitions := by
    rw [hlines]
    decide
  have hsecond : (3, "A[[x]] --> B".toList) ∈ sketchRegion.transitions := by
    rw [hlines]
    decide
  constructor
  · obtain ⟨chain, hchain, hread, -⟩ := read_transition_of_clean hclean hregion hfirst (some 2)
    obtain ⟨edges, hedges, hdraws⟩ := hread (by decide +kernel)
    refine ⟨edges, hedges, ?_⟩
    have hnames :
      (readChain? (Statement.lineBody "Main-Menu((x)) -- go --> B -->|on| C".toList)).map
        (fun chain => chain.names.map String.ofList) = some ["Main-Menu", "B", "C"] := by
          decide +kernel
    rw [hchain] at hnames
    exact Option.some.inj hnames ▸ hdraws
  · obtain ⟨chain, -, -, hfault⟩ := read_transition_of_clean hclean hregion hsecond (some 3)
    exact hfault (by decide +kernel) (by decide +kernel)

/-- Four transitions that the lint has no error for, and that cannot be read. -/
theorem exists_unread_transition : (check {} sketch "").errors = [] ∧
    sketchRegion ∈ (regions sketch.toList).1 ∧ sketchRegion.transitions = sketchRegion.lines.tail ∧
    ∀ line ∈ sketchRegion.lines.drop 2, ∀ edges,
    Statement.read (some line.1) line.2 ≠ .ok edges := by
  have hunread : ∀ line ∈ sketchRegion.lines.drop 2,
      (Statement.read (some line.1) line.2).toOption = none := by decide +kernel
  refine ⟨sketch_clean.1, sketch_clean.2.1, sketch_clean.2.2, fun line hline edges hread => ?_⟩
  have hnone := hunread line hline
  rw [hread] at hnone
  cases hnone

end FlowMachine.Lint
