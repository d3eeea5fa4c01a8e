import FlowMachine.Proofs.Diagram.Numbering
import FlowMachine.Proofs.Diagram.Trails
import FlowMachine.Proofs.Diagram.WellFormed
import FlowMachine.Proofs.Text.Null

/-!
# Characters of labels and names

A label is a piece of the line that it is read from, less blanks and quotes at its ends, and a node
without a label is shown under its id. So a property of all characters of a source is one of the
labels of its nodes, if it holds of the characters of ids as well.
-/
namespace FlowMachine

open FlowMachine.Text

namespace Text

theorem mem_of_mem_lines {cs line : List Char} (h : line ∈ lines cs) {c : Char} (hc : c ∈ line) :
    c ∈ cs := by
  fun_induction lines cs generalizing line with
  | case1 => cases h
  | case2 cs ih =>
    rcases List.mem_cons.mp h with rfl | h
    · cases hc
    · exact List.mem_cons_of_mem _ (List.mem_cons_of_mem _ (ih h hc))
  | case3 d cs _ _ ih =>
    rcases List.mem_cons.mp h with rfl | h
    · cases hc
    · exact List.mem_cons_of_mem _ (ih h hc)
  | case4 d cs _ _ ih =>
    cases hlines : lines cs with
    | nil =>
      rw [hlines, consLine] at h
      rw [List.mem_singleton.mp h] at hc
      exact List.mem_singleton.mp hc ▸ List.mem_cons_self
    | cons first more =>
      rw [hlines, consLine] at h
      rw [hlines] at ih
      rcases List.mem_cons.mp h with rfl | h
      · rcases List.mem_cons.mp hc with rfl | hc
        · exact List.mem_cons_self
        · exact List.mem_cons_of_mem _ (ih List.mem_cons_self hc)
      · exact List.mem_cons_of_mem _ (ih (List.mem_cons_of_mem _ h) hc)

theorem mem_of_mem_numberFrom {n : Nat} {ls : List (List Char)} {l : Nat × List Char}
    (h : l ∈ numberFrom n ls) :
    l.2 ∈ ls := by
  induction ls generalizing n with
  | nil => cases h
  | cons line rest ih =>
    rcases List.mem_cons.mp h with rfl | h
    · exact List.mem_cons_self
    · exact List.mem_cons_of_mem _ (ih h)

theorem trimStart_subset (cs : List Char) : trimStart cs ⊆ cs :=
  (List.dropWhile_sublist isBlank).subset

theorem trim_subset (cs : List Char) : trim cs ⊆ cs := (isInfix_trim cs).subset

end Text

variable {p : Char → Prop}

/-- The characters of the label, if there is one, have the property. -/
def NodeRef.Spelled (p : Char → Prop) (r : NodeRef) : Prop :=
  ∀ label ∈ r.label, ∀ c ∈ label.toList, p c

namespace Statement

variable {cs rest : List Char}

theorem readName_subset (cs : List Char) : (readName cs).2 ⊆ cs := by
  induction cs with
  | nil => exact List.Subset.refl _
  | cons c cs ih =>
    rw [readName]
    split_ifs
    · exact List.subset_cons_of_subset c ih
    · exact List.Subset.refl _

theorem subset_of_readUntil {closer : String} {what : Enclosure} {label : List Char}
    (h : readUntil closer what cs = .ok (label, rest)) : label ⊆ cs ∧ rest ⊆ cs := by
  unfold readUntil at h
  split at h
  · rename_i cut hcut
    obtain rfl := Except.ok.inj h
    rw [eq_of_cutAt? hcut]
    exact ⟨List.subset_append_left _ _,
      List.subset_append_of_subset_right _ (List.subset_append_right _ _)⟩
  · cases h

theorem subset_of_bracketAt? {b : Bracket} (h : bracketAt? cs = some (b, rest)) : rest ⊆ cs := by
  obtain ⟨_, -, hfound⟩ := List.exists_of_findSome?_eq_some h
  obtain ⟨_, hbehind, hpair⟩ := Option.map_eq_some_iff.mp hfound
  cases hpair
  rw [behind?_eq_some_iff.mp hbehind]
  exact List.subset_append_right _ _

theorem subset_of_readForm {id : String} {form : Option (Shape × String)}
    (h : readForm id cs = .ok (form, rest)) :
    NodeRef.Spelled (· ∈ cs) ⟨id, form⟩ ∧ rest ⊆ cs := by
  unfold readForm at h
  split at h
  · cases h
    exact ⟨nofun, List.Subset.refl _⟩
  · rename_i b inner hb
    have hinner := subset_of_bracketAt? hb
    split at h
    · cases h
    · rename_i label behind huntil
      cases h
      obtain ⟨hlabel, hrest⟩ := subset_of_readUntil huntil
      refine ⟨?_, fun c hc => hinner (hrest hc)⟩
      rintro _ ⟨⟩ c hc
      rw [String.toList_ofList] at hc
      exact hinner (hlabel ((Label.unquote_infix label).subset hc))

theorem subset_of_readNode {ref : NodeRef} (h : readNode cs = .ok (ref, rest)) :
    ref.Spelled (· ∈ cs) ∧ rest ⊆ cs := by
  obtain ⟨-, -, hform⟩ := readNode_ok h
  obtain ⟨hlabel, hrest⟩ := subset_of_readForm hform
  have hname : (readName (trimStart cs)).2 ⊆ cs := fun c hc =>
    trimStart_subset cs (readName_subset _ hc)
  exact ⟨fun label hl c hc => hname (hlabel label hl c hc), fun c hc => hname (hrest hc)⟩

theorem subset_of_readPipeLabel {label : Option String} (h : readPipeLabel cs = .ok (label, rest)) :
    rest ⊆ cs := by
  have htrim := trimStart_subset cs
  unfold readPipeLabel at h
  split at h
  · rename_i inner hpipe
    split at h
    · cases h
    · rename_i found behind huntil
      cases h
      rw [hpipe] at htrim
      exact fun c hc => htrim (List.mem_cons_of_mem _ ((subset_of_readUntil huntil).2 hc))
  · cases h
    exact htrim

theorem subset_of_readArrow {label : String} {arrow : Arrow}
    (h : readArrow cs = .ok (label, arrow, rest)) : rest ⊆ cs := by
  have htrim := trimStart_subset cs
  have hbehind {ds : List Char} (front : List Char) (heq : trimStart cs = front ++ ds) :
      ds ⊆ cs := fun c hc =>
    htrim (heq ▸ List.mem_append_right front hc)
  unfold readArrow at h
  split at h
  · rename_i behind heq
    have hds := hbehind ['-', '-', '>'] heq
    split at h
    · cases h
    · rename_i hlabel
      cases h
      exact fun c hc => hds (subset_of_readPipeLabel hlabel hc)
    · rename_i hlabel
      cases h
      exact fun c hc => hds (subset_of_readPipeLabel hlabel hc)
  · rename_i behind heq
    have hds := hbehind ['-', '-'] heq
    split at h
    · cases h
    · rename_i huntil
      cases h
      exact fun c hc => hds ((subset_of_readUntil huntil).2 hc)
  · rename_i behind heq
    have hds := hbehind ['-', '>'] heq
    split at h
    · cases h
    · rename_i hlabel
      cases h
      exact fun c hc => hds (subset_of_readPipeLabel hlabel hc)
  · cases h

/-- The target of each edge is the source of the next, so one label at the front is enough. -/
theorem spelled_of_readEdges {line : Option Int} {source : NodeRef} {cs : List Char}
    {ss : List Statement} (hcs : ∀ c ∈ cs, p c)
    (hsource : source.Spelled p) (h : readEdges line source cs = .ok ss) :
    ∀ s ∈ ss, ∀ ref ∈ s.refs, ref.Spelled p := by
  obtain ⟨-, rfl⟩ | ⟨label, arrow, behind, target, rest, more, ha, hn, hm, rfl⟩ := readEdges_ok h
  · exact fun s hs => absurd hs List.not_mem_nil
  · have hbehind : ∀ c ∈ behind, p c := fun c hc => hcs c (subset_of_readArrow ha hc)
    obtain ⟨hlabel, hrest⟩ := subset_of_readNode hn
    have htarget : target.Spelled p := fun label hl c hc => hbehind c (hlabel label hl c hc)
    refine List.forall_mem_cons.mpr
      ⟨?_, spelled_of_readEdges (fun c hc => hbehind c (hrest hc)) htarget hm⟩
    exact List.forall_mem_cons.mpr ⟨hsource, List.forall_mem_singleton.mpr htarget⟩
termination_by cs.length
decreasing_by
  have := length_of_readArrow ha
  have := length_of_readNode hn
  omega

theorem spelled_of_readChain {line : Option Int} {ss : List Statement} (hcs : ∀ c ∈ cs, p c)
    (h : readChain line cs = .ok ss) : ∀ s ∈ ss, ∀ ref ∈ s.refs, ref.Spelled p := by
  obtain ⟨first, rest, hn, hss⟩ := readChain_ok h
  obtain ⟨hlabel, hrest⟩ := subset_of_readNode hn
  have hfirst : first.Spelled p := fun label hl c hc => hcs c (hlabel label hl c hc)
  obtain ⟨inner, -, hd⟩ | ⟨-, rfl⟩ | he := hss
  · obtain ⟨shape, classes, rfl⟩ := readDirective_ok hd
    simp [refs]
  · simpa [refs] using hfirst
  · exact spelled_of_readEdges (fun c hc => hcs c (hrest hc)) hfirst he

theorem spelled_of_read {line : Option Int} {ss : List Statement} (hcs : ∀ c ∈ cs, p c)
    (h : read line cs = .ok ss) :
    ∀ s ∈ ss, ∀ ref ∈ s.refs, ref.Spelled p := by
  obtain ⟨-, rfl⟩ | ⟨rest, -, hc⟩ | ⟨rest, -, ha⟩ | hch := read_ok h
  · exact fun s hs => absurd hs List.not_mem_nil
  · obtain ⟨name, styles, rfl⟩ := readClassDef_ok hc
    simp [refs]
  · obtain ⟨ids, className, -, rfl⟩ := readAssignment_ok ha
    simp [refs]
  · refine spelled_of_readChain (fun c hc => hcs c ?_) hch
    exact trim_subset cs (mem_of_mem_dropEndWhile (mem_of_mem_dropEndWhile hc))

end Statement

namespace Block

theorem spelled_of_readLines {depth : Nat} {ls : List (Nat × List Char)}
    (hls : ∀ l ∈ ls, ∀ c ∈ l.2, p c) :
    ∀ s ∈ (readLines depth ls).1, ∀ ref ∈ s.refs, ref.Spelled p := by
  induction ls generalizing depth with
  | nil => simp [readLines]
  | cons l rest ih =>
    obtain ⟨n, raw⟩ := l
    obtain ⟨hraw, hrest⟩ := List.forall_mem_cons.mp hls
    refine List.forall_mem_append.mpr ⟨?_, ih hrest⟩
    rcases readLine_statements depth n raw with hnil | hread
    · simp [hnil]
    · exact Statement.spelled_of_read (fun c hc => hraw c (trim_subset raw hc)) hread

/-- The labels in a block are written in characters of its source. -/
theorem spelled_of_mem_ofText {cs : List Char} {b : Block} (hb : b ∈ ofText cs)
    (hcs : ∀ c ∈ cs, p c) :
    ∀ s ∈ b.read.1, ∀ ref ∈ s.refs, ref.Spelled p :=
  spelled_of_readLines fun _ hl c hc =>
    hcs c (mem_of_mem_lines (mem_of_mem_numberFrom (mem_numberedLines hb hl)) hc)

end Block

/-! ## Labels of nodes -/

namespace Draft

/-- The label of the node is written in characters with the property. -/
def IsLabeled (p : Char → Prop) (n : Node) : Prop := ∀ c ∈ n.label.toList, p c

variable {limit : Limit} {g : Draft} {ref : NodeRef} {id : String} {line : Option Int}

section Names

-- ids of nodes stand for labels that are missing
variable (hp : ∀ id, IsStateName id → ∀ c ∈ id.toList, p c)

include hp

theorem isLabeled_declaredNode (hname : IsStateName ref.id) (hlabel : ref.Spelled p)
    (line : Option Int) :
    IsLabeled p (declaredNode ref line) := by
  show ∀ c ∈ (if (ref.label.getD ref.id).isEmpty then ref.id else ref.label.getD ref.id).toList, p c
  split_ifs
  · exact hp _ hname
  · cases hsome : ref.label with
    | none => exact hp _ hname
    | some label => exact hlabel label hsome

theorem isLabeled_mention (hname : IsStateName id) (h : ∀ n ∈ g.nodes, IsLabeled p n) :
    ∀ n ∈ (g.mention id line).nodes, IsLabeled p n :=
  forall_mention (hp id hname) h

theorem isLabeled_declare (hname : IsStateName ref.id) (hlabel : ref.Spelled p)
    (h : ∀ n ∈ g.nodes, IsLabeled p n) :
    ∀ n ∈ (g.declare limit ref line).nodes, IsLabeled p n :=
  forall_declare (isLabeled_declaredNode hp hname hlabel line)
    (fun _ _ => isLabeled_declaredNode hp hname hlabel line) h

theorem isLabeled_endpoint (hname : IsStateName ref.id) (hlabel : ref.Spelled p)
    (h : ∀ n ∈ g.nodes, IsLabeled p n) :
    ∀ n ∈ (g.endpoint limit ref line).nodes, IsLabeled p n := by
  unfold endpoint
  split
  · exact isLabeled_declare hp hname hlabel h
  · exact isLabeled_mention hp hname h

theorem isLabeled_restyle {shape : Option String} {classes : List String} (hname : IsStateName id)
    (h : ∀ n ∈ g.nodes, IsLabeled p n) :
    ∀ n ∈ (g.restyle id shape classes line).nodes, IsLabeled p n := by
  have hmention : ∀ n ∈ (g.mention id line).nodes, IsLabeled p n := isLabeled_mention hp hname h
  unfold restyle
  refine forall_modify (fun n hn => by rwa [IsLabeled, Node.foldl_withClass]) ?_
  split
  · exact hmention
  · split
    · exact hmention
    · exact forall_modify (fun n hn => hn) hmention

theorem isLabeled_apply {s : Statement} (hname : s.Named) (hlabels : ∀ ref ∈ s.refs, ref.Spelled p)
    (h : ∀ n ∈ g.nodes, IsLabeled p n) : ∀ n ∈ (g.apply limit s).nodes, IsLabeled p n := by
  cases s with
  | node ref line =>
    exact isLabeled_declare hp (hname _ (by simp [Statement.mentioned]))
      (hlabels _ List.mem_cons_self) h
  | edge source target label arrow line =>
    have hsource : ∀ n ∈ (g.endpoint limit source line).nodes, IsLabeled p n :=
      isLabeled_endpoint hp (hname source.id (by simp [Statement.mentioned]))
        (hlabels source (by simp [Statement.refs])) h
    exact isLabeled_endpoint hp (hname target.id (by simp [Statement.mentioned]))
      (hlabels target (by simp [Statement.refs])) hsource
  | classDef name styles line => exact h
  | style id shape classes line =>
    exact isLabeled_restyle hp (hname id (by simp [Statement.mentioned])) h
  | assign ids name line =>
    have hids : ∀ id ∈ ids, IsStateName id := fun id hid =>
      hname id (by simpa [Statement.mentioned] using hid)
    clear hname hlabels
    simp only [apply]
    induction ids generalizing g with
    | nil => exact h
    | cons id rest ih =>
      obtain ⟨hid, hrest⟩ := List.forall_mem_cons.mp hids
      refine ih (forall_modify (fun n hn => ?_) (isLabeled_mention hp hid h)) hrest
      rwa [IsLabeled, Node.withClass_eq]

theorem isLabeled_ofStatements {ss : List Statement} (hnames : ∀ s ∈ ss, s.Named)
    (hlabels : ∀ s ∈ ss, ∀ ref ∈ s.refs, ref.Spelled p) :
    ∀ n ∈ (ofStatements limit ss).nodes, IsLabeled p n := by
  have run : ∀ (ss : List Statement) (g : Draft), (∀ s ∈ ss, s.Named) →
      (∀ s ∈ ss, ∀ ref ∈ s.refs, ref.Spelled p) →
      (∀ n ∈ g.nodes, IsLabeled p n) → ∀ n ∈ (ss.foldl (apply limit) g).nodes, IsLabeled p n := by
    intro ss
    induction ss with
    | nil => exact fun g _ _ h => h
    | cons s ss ih =>
      intro g hnames hlabels h
      obtain ⟨hname, hnames⟩ := List.forall_mem_cons.mp hnames
      obtain ⟨hlabel, hlabels⟩ := List.forall_mem_cons.mp hlabels
      exact ih _ hnames hlabels (isLabeled_apply hp hname hlabel h)
  exact run ss {} hnames hlabels nofun

end Names

end Draft

namespace Source

variable {options : ReadOptions} {text : String} {name path : Option String} {d : Diagram}

/-- The labels of nodes are written in the characters of the source, and of ids and of the
placeholder. -/
theorem isLabeled_of_mem_read (h : d ∈ (read options text name path).diagrams)
    (htext : ∀ c ∈ text.toList, p c)
    (hp : ∀ id, IsStateName id → ∀ c ∈ id.toList, p c) (hempty : ∀ c ∈ "Empty State".toList, p c) :
    ∀ n ∈ d.nodes, Draft.IsLabeled p n := by
  obtain ⟨b, hb, id, hd⟩ := exists_mem_ofText_of_mem_read h
  have hnodes : ∀ n ∈ (Draft.ofStatements options.labelLimit b.read.1).nodes, Draft.IsLabeled p n :=
    Draft.isLabeled_ofStatements hp b.named_of_read (Block.spelled_of_mem_ofText hb htext)
  simp only [readBlock, Diagram.assemble] at hd
  split_ifs at hd <;> cases hd <;> intro n hn <;> obtain ⟨k, hk, rfl⟩ := List.mem_map.mp hn
  · rw [List.mem_singleton.mp hk]
    exact hempty
  · exact hnodes k hk

theorem sourcePath_of_mem_read (h : d ∈ (read options text name path).diagrams) :
    d.sourcePath = path := by
  obtain ⟨b, id, hd⟩ := exists_block_of_mem_read h
  simp only [readBlock, Diagram.assemble] at hd
  split_ifs at hd <;> cases hd <;> rfl

end Source

/-! ## Null characters -/

theorem nulFree_blockId {base : String} (h : NulFree base) (n : Nat) :
    NulFree (Source.blockId base n) := by
  unfold Source.blockId
  split_ifs
  · exact h
  · have hnumber : NulFree (n + 1).repr := nulFree_toString (n + 1)
    simp only [toString, nulFree_append]
    exact ⟨⟨h, by decide⟩, hnumber⟩

end FlowMachine
