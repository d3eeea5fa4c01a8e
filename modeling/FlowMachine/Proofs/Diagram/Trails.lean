import FlowMachine.Proofs.Diagram.Blocks
import FlowMachine.Proofs.Diagram.Written
import Mathlib.Data.List.Infix

/-!
# What a line is read into

Whatever line is read, it gives nothing, one statement that is no edge, or a trail of edges: each of
them starts at the very mention of a node at which the one before it ends. A label holds none of the
marks that end it, since it is cut off at the first of them and only made shorter after that.
-/
namespace FlowMachine

open FlowMachine.Text

/-! ## Labels end at their mark -/

namespace Text

/-- Nothing of a mark stands before its first occurrence. -/
theorem not_infix_of_cutAt? {mark cs before after : List Char} (hmark : mark ≠ [])
    (h : cutAt? mark cs = some (before, after)) : ¬ mark <:+: before := by
  induction cs generalizing before with
  | nil => simp [cutAt?, hmark] at h
  | cons c cs ih =>
    rw [cutAt?] at h
    split at h
    · obtain ⟨rfl, -⟩ : [] = before ∧ _ = after := by simpa using h
      simpa using hmark
    · rename_i hbehind
      obtain ⟨⟨front, back⟩, hcut, hparts⟩ := Option.map_eq_some_iff.mp h
      obtain ⟨rfl, rfl⟩ := Prod.mk.inj hparts
      rw [List.infix_cons_iff, not_or]
      refine ⟨?_, ih hcut⟩
      rintro ⟨more, hmore⟩
      -- a mark that starts at `c` would have been found there
      have hfront : c :: cs = mark ++ (more ++ (mark ++ back)) := by
        rw [eq_of_cutAt? hcut, ← List.cons_append, ← hmore, List.append_assoc]
      rw [behind?_eq_some_iff.mpr hfront] at hbehind
      cases hbehind

theorem isInfix_trim (cs : List Char) : trim cs <:+: cs :=
  (isPrefix_dropEndWhile isBlank _).isInfix.trans (List.dropWhile_suffix _).isInfix

end Text

theorem Label.unquote_infix (cs : List Char) : unquote cs <:+: cs := by
  unfold unquote
  have htrim := isInfix_trim cs
  cases hchars : trim cs with
  | nil => exact List.nil_infix
  | cons q rest =>
    rw [hchars] at htrim
    dsimp only
    split_ifs
    · have hrest : rest <:+: q :: rest := (List.suffix_cons q rest).isInfix
      have hinner : trim rest.dropLast <:+: rest :=
        (isInfix_trim _).trans (List.dropLast_prefix rest).isInfix
      exact hinner.trans (hrest.trans htrim)
    · exact htrim

/-- The label of the mention, if it has one, does not hold the mark that closes its shape. -/
def NodeRef.Closed (r : NodeRef) : Prop :=
  ∀ shape ∈ r.shape, ∀ label ∈ r.label, ¬ shape.marks.2 <:+: label.toList

namespace Statement

theorem closer_of_mem_brackets :
    ∀ b ∈ brackets, b.closer.toList = b.shape.marks.2 ∧ b.shape.marks.2 ≠ [] := by
  decide

theorem mem_brackets_of_bracketAt? {cs rest : List Char} {b : Bracket}
    (h : bracketAt? cs = some (b, rest)) : b ∈ brackets := by
  obtain ⟨b', hb', hfound⟩ := List.exists_of_findSome?_eq_some h
  obtain ⟨_, -, hpair⟩ := Option.map_eq_some_iff.mp hfound
  cases hpair
  exact hb'

/-- What is read up to a mark and cleaned does not hold the mark. -/
theorem not_infix_of_readUntil {closer : String} {what : Enclosure} {cs label rest : List Char}
    (hcloser : closer.toList ≠ []) (h : readUntil closer what cs = .ok (label, rest)) :
    ¬ closer.toList <:+: Label.unquote label := by
  unfold readUntil at h
  split at h
  · rename_i cut hcut
    obtain rfl := Except.ok.inj h
    exact fun hmark => not_infix_of_cutAt? hcloser hcut (hmark.trans (Label.unquote_infix label))
  · cases h

theorem closed_of_readForm {id : String} {cs rest : List Char} {form : Option (Shape × String)}
    (h : readForm id cs = .ok (form, rest)) : NodeRef.Closed ⟨id, form⟩ := by
  unfold readForm at h
  split at h
  · cases h
    intro shape hshape
    cases hshape
  · rename_i b inner hb
    split at h
    · cases h
    · rename_i label behind huntil
      cases h
      obtain ⟨hcloser, hne⟩ := closer_of_mem_brackets b (mem_brackets_of_bracketAt? hb)
      rintro _ ⟨⟩ _ ⟨⟩
      rw [String.toList_ofList, ← hcloser]
      exact not_infix_of_readUntil (hcloser ▸ hne) huntil

theorem closed_of_readNode {cs rest : List Char} {ref : NodeRef}
    (h : readNode cs = .ok (ref, rest)) :
    ref.Closed := by
  obtain ⟨-, -, hform⟩ := readNode_ok h
  exact closed_of_readForm hform

theorem not_mem_of_readPipeLabel {cs rest : List Char} {label : String}
    (h : readPipeLabel cs = .ok (some label, rest)) : '|' ∉ label.toList := by
  unfold readPipeLabel at h
  split at h
  · split at h
    · cases h
    · rename_i label' behind huntil
      cases h
      have hpipe : "|".toList ≠ [] := by decide
      rw [String.toList_ofList, ← List.singleton_infix_iff]
      exact not_infix_of_readUntil hpipe huntil
  · cases h

/-- Only a label between hyphens can hold a pipe. -/
theorem not_mem_of_readArrow {cs rest : List Char} {label : String} {arrow : Arrow}
    (h : readArrow cs = .ok (label, arrow, rest)) (harrow : arrow ≠ .dashed) :
    '|' ∉ label.toList := by
  unfold readArrow at h
  split at h
  · split at h
    · cases h
    · rename_i hlabel
      cases h
      exact not_mem_of_readPipeLabel hlabel
    · cases h
      simp
  · split at h
    · cases h
    · cases h
      exact absurd rfl harrow
  · split at h
    · cases h
    · rename_i found behind hlabel
      cases h
      cases found with
      | none => simp
      | some label => exact not_mem_of_readPipeLabel hlabel
  · cases h

/-! ## Trails of edges -/

/-- The mention of a node at which an edge starts. -/
def source? : Statement → Option NodeRef
  | .edge source _ _ _ _ => some source
  | _ => none

/-- The mention of a node at which an edge ends. -/
def target? : Statement → Option NodeRef
  | .edge _ target _ _ _ => some target
  | _ => none

def IsEdge (s : Statement) : Prop := s.source?.isSome

/-- Edges, at least one, each of which starts where the one before it ends. -/
structure Trail (ss : List Statement) : Prop where
  ne_nil : ss ≠ []
  edges : ∀ s ∈ ss, s.IsEdge
  linked : ss.IsChain fun s t => t.source? = s.target?

/-- The mentions by which a statement names nodes, with their forms. -/
def refs : Statement → List NodeRef
  | .node ref _ => [ref]
  | .edge source target _ _ _ => [source, target]
  | _ => []

/-- What holds of the texts in a statement: the nodes have state names, a mention has a label
exactly when it has a shape, and no label holds the mark that ends it. -/
structure Clean (s : Statement) : Prop where
  named : s.Named
  forms : ∀ ref ∈ s.refs, (ref.label.isSome ↔ ref.shape.isSome) ∧ ref.Closed
  pipes : ∀ source target label arrow line, s = .edge source target label arrow line →
    arrow ≠ .dashed → '|' ∉ label.toList

theorem isSome_label_iff (ref : NodeRef) : ref.label.isSome ↔ ref.shape.isSome := by
  simp [NodeRef.label, NodeRef.shape]

theorem clean_edge {source target : NodeRef} {cs rest : List Char} {label : String} {arrow : Arrow}
    {line : Option Int} (hnamed : (Statement.edge source target label arrow line).Named)
    (hsource : source.Closed) (htarget : target.Closed)
    (harrow : readArrow cs = .ok (label, arrow, rest)) :
    Clean (.edge source target label arrow line) where
  named := hnamed
  forms := by
    simp only [refs, List.forall_mem_cons, isSome_label_iff, true_and, List.not_mem_nil,
      false_implies, implies_true, and_true]
    exact ⟨hsource, htarget⟩
  pipes := by
    rintro _ _ _ _ _ ⟨⟩ hdashed
    exact not_mem_of_readArrow harrow hdashed

/-- A statement that is no edge has only its names and the form of its node to look at. -/
theorem clean_of_not_isEdge {s : Statement} (hnamed : s.Named) (hedge : ¬ s.IsEdge)
    (hclosed : ∀ ref ∈ s.refs, ref.Closed) : s.Clean where
  named := hnamed
  forms ref href := ⟨isSome_label_iff ref, hclosed ref href⟩
  pipes := by
    rintro _ _ _ _ _ rfl
    exact absurd rfl hedge

/-- The edges behind a node start at its mention and lead from one to the next. -/
theorem linked_of_readEdges {line : Option Int} {source : NodeRef} {cs : List Char}
    {ss : List Statement}
    (h : readEdges line source cs = .ok ss) :
    (∀ s ∈ ss, s.IsEdge) ∧ (∀ s ∈ ss.head?, s.source? = some source) ∧
      ss.IsChain fun s t => t.source? = s.target? := by
  obtain ⟨-, rfl⟩ | ⟨label, arrow, behind, target, rest, more, ha, hn, hm, rfl⟩ := readEdges_ok h
  · exact ⟨by simp, by simp, .nil⟩
  · obtain ⟨hedges, hfirst, hlinked⟩ := linked_of_readEdges hm
    exact ⟨List.forall_mem_cons.mpr ⟨rfl, hedges⟩, by simp [source?],
      List.isChain_cons.mpr ⟨hfirst, hlinked⟩⟩
termination_by cs.length
decreasing_by
  have := length_of_readArrow ha
  have := length_of_readNode hn
  omega

theorem clean_of_readEdges {line : Option Int} {source : NodeRef} {cs : List Char}
    {ss : List Statement}
    (hname : IsStateName source.id) (hsource : source.Closed)
    (h : readEdges line source cs = .ok ss) :
    ∀ s ∈ ss, s.Clean := by
  have hnamed := named_of_readEdges hname h
  obtain ⟨-, rfl⟩ | ⟨label, arrow, behind, target, rest, more, ha, hn, hm, rfl⟩ := readEdges_ok h
  · simp
  · have htarget := closed_of_readNode hn
    obtain ⟨hfirst, -⟩ := List.forall_mem_cons.mp hnamed
    exact List.forall_mem_cons.mpr ⟨clean_edge hfirst hsource htarget ha,
      clean_of_readEdges (isStateName_of_readNode hn) htarget hm⟩
termination_by cs.length
decreasing_by
  have := length_of_readArrow ha
  have := length_of_readNode hn
  omega

/-! ## Lines -/

/-- One statement that is no edge, or a trail. -/
def Arranged (ss : List Statement) : Prop := (∃ s, ss = [s] ∧ ¬ s.IsEdge) ∨ Trail ss

theorem Arranged.ne_nil {ss : List Statement} (h : Arranged ss) : ss ≠ [] := by
  rcases h with ⟨s, rfl, -⟩ | htrail
  · exact List.cons_ne_nil s []
  · exact htrail.ne_nil

/-- A single statement that mentions no node with a form is as it should be when its names are. -/
theorem arranged_single {s : Statement} (hnamed : s.Named) (hedge : ¬ s.IsEdge)
    (hrefs : s.refs = []) :
    Arranged [s] ∧ ∀ t ∈ [s], t.Clean := by
  refine ⟨.inl ⟨s, rfl, hedge⟩, List.forall_mem_singleton.mpr ?_⟩
  exact clean_of_not_isEdge hnamed hedge (by simp [hrefs])

theorem ne_nil_of_readChain {line : Option Int} {cs : List Char} {ss : List Statement}
    (h : readChain line cs = .ok ss) : ss ≠ [] := by
  unfold readChain at h
  split at h
  · cases h
  · split at h
    · obtain ⟨shape, classes, rfl⟩ := readDirective_ok h
      simp
    · split at h
      · cases h
      · cases h
        simp
      · rename_i hne _
        cases h
        exact hne

theorem arranged_of_readChain {line : Option Int} {cs : List Char} {ss : List Statement}
    (h : readChain line cs = .ok ss) : Arranged ss ∧ ∀ s ∈ ss, s.Clean := by
  have hnamed := named_of_readChain h
  have hne := ne_nil_of_readChain h
  obtain ⟨first, rest, hn, ⟨inner, -, hd⟩ | ⟨-, rfl⟩ | he⟩ := readChain_ok h
  · obtain ⟨shape, classes, rfl⟩ := readDirective_ok hd
    exact arranged_single (List.forall_mem_singleton.mp hnamed) (by simp [IsEdge, source?]) rfl
  · have hclosed := closed_of_readNode hn
    rw [List.forall_mem_singleton] at hnamed ⊢
    exact ⟨.inl ⟨_, rfl, by simp [IsEdge, source?]⟩,
      clean_of_not_isEdge hnamed (by simp [IsEdge, source?]) (by simpa [refs] using hclosed)⟩
  · obtain ⟨hedges, -, hlinked⟩ := linked_of_readEdges he
    exact ⟨.inr ⟨hne, hedges, hlinked⟩,
      clean_of_readEdges (isStateName_of_readNode hn) (closed_of_readNode hn) he⟩

/-- Reading a line is sound. It gives nothing exactly when nothing is left of the line; otherwise it
gives one statement that is no edge, or a trail of edges. Every statement is clean and has the
line's number. -/
theorem arranged_of_read {line : Option Int} {cs : List Char} {ss : List Statement}
    (h : read line cs = .ok ss) :
    (ss = [] ↔ lineBody cs = []) ∧ (ss ≠ [] → Arranged ss) ∧ ∀ s ∈ ss, s.Clean ∧ s.line = line := by
  have hline := line_of_read h
  have hnamed := named_of_read h
  have hempty : lineBody cs = [] → ss = [] := by
    intro hbody
    simpa [read, hbody] using h.symm
  have hsound : ss = [] ∧ lineBody cs = [] ∨ Arranged ss ∧ ∀ s ∈ ss, s.Clean := by
    obtain ⟨hbody, rfl⟩ | ⟨rest, -, hc⟩ | ⟨rest, -, ha⟩ | hch := read_ok h
    · exact .inl ⟨rfl, hbody⟩
    · obtain ⟨name, styles, rfl⟩ := readClassDef_ok hc
      exact .inr
        (arranged_single (List.forall_mem_singleton.mp hnamed) (by simp [IsEdge, source?]) rfl)
    · obtain ⟨ids, className, -, rfl⟩ := readAssignment_ok ha
      exact .inr
        (arranged_single (List.forall_mem_singleton.mp hnamed) (by simp [IsEdge, source?]) rfl)
    · exact .inr (arranged_of_readChain hch)
  rcases hsound with ⟨rfl, hbody⟩ | ⟨harranged, hclean⟩
  · exact ⟨by simp [hbody], fun hne => absurd rfl hne, by simp⟩
  · exact ⟨⟨fun hnil => absurd hnil harranged.ne_nil, hempty⟩, fun _ => harranged,
      fun s hs => ⟨hclean s hs, hline s hs⟩⟩

/-- A trail with a pipe in a label between hyphens, and quotes that are taken off. -/
theorem arranged_of_read_tour :
    let ss : List Statement :=
      [.edge ⟨"A", some (.stadium, "x y")⟩ ⟨"B", none⟩ "go" .labeled (some 7),
       .edge ⟨"B", none⟩ ⟨"C", some (.circle, "d")⟩ "a|b" .dashed (some 7)]
    read (some 7) " A([\"x y\"]) -->|go| B -- a|b --> C((d)) ; ".toList = .ok ss ∧
      Arranged ss ∧ ∀ s ∈ ss, s.Clean ∧ s.line = some 7 := by
  have hread : read (some 7) " A([\"x y\"]) -->|go| B -- a|b --> C((d)) ; ".toList = .ok
      [.edge ⟨"A", some (.stadium, "x y")⟩ ⟨"B", none⟩ "go" .labeled (some 7),
       .edge ⟨"B", none⟩ ⟨"C", some (.circle, "d")⟩ "a|b" .dashed (some 7)] := by decide +kernel
  obtain ⟨-, harranged, hclean⟩ := arranged_of_read hread
  exact ⟨hread, harranged (List.cons_ne_nil _ _), hclean⟩

end Statement

end FlowMachine
