import FlowMachine.Proofs.Diagram.StateNames
import FlowMachine.Proofs.Text.Marks
import FlowMachine.Proofs.Text.Pieces

/-!
# Writing a line and reading it back

A chain is written as its mentions of nodes with arrows between them, and any blanks around the
arrows and around the labels in them. Reading what was written gives the chain back: the node alone,
or one edge for each arrow. A name may hold no two hyphens in a row and no hyphen at its end, since
there an arrow starts, and a label may not hold the mark that ends it.
-/
namespace FlowMachine

open FlowMachine.Text

/-! ## What can be written -/

/-- The marks around the label of a shape. -/
def Shape.marks : Shape → List Char × List Char
  | .rectangle => (['['], [']'])
  | .rounded => (['('], [')'])
  | .circle => (['(', '('], [')', ')'])
  | .diamond => (['{'], ['}'])
  | .hexagon => (['{', '{'], ['}', '}'])
  | .stadium => (['(', '['], [']', ')'])

/-- No arrow starts in the name or at its end. -/
def IsArrowless (name : List Char) : Prop := ¬ ['-', '-'] <:+: name ∧ ¬ ['-'] <:+ name

instance : DecidablePred IsArrowless := fun _ => inferInstanceAs (Decidable (_ ∧ _))

theorem isArrowless_of_not_mem {name : List Char} (h : '-' ∉ name) : IsArrowless name :=
  ⟨fun hinside => h (hinside.subset List.mem_cons_self),
    fun hbehind => h (hbehind.subset List.mem_cons_self)⟩

/-- The label has no quotes, and no blanks around it. -/
def IsTrimmed (label : String) : Prop :=
  trim label.toList = label.toList ∧ ∀ c ∈ label.toList, c ≠ '"' ∧ c ≠ '\''

instance : DecidablePred IsTrimmed := fun label =>
  decidable_of_iff (trim label.toList = label.toList ∧
    label.toList.all (fun c => c != '"' && c != '\'') = true) (by simp [IsTrimmed])

theorem isStateName_iff {id : String} :
    Statement.isStateName id.toList = true ↔ IsStateName id := by
  constructor
  · intro h
    have hname := Statement.isStateName_ofList h
    rwa [String.ofList_toList] at hname
  · rintro ⟨c, rest, hid, hc, hrest⟩
    rw [hid]
    simpa [Statement.isStateName, hc, Statement.isNameChar, or_assoc] using hrest

instance : DecidablePred IsStateName := fun _ => decidable_of_iff _ isStateName_iff

def isBracket (c : Char) : Bool := ['(', ')', '[', ']', '{', '}'].contains c

namespace NodeRef

/-- The label of a mention between the marks of its shape. -/
def formWritten (r : NodeRef) : List Char :=
  match r.form with
  | none => []
  | some (shape, label) => shape.marks.1 ++ (label.toList ++ shape.marks.2)

/-- A mention as it is written. -/
def written (r : NodeRef) : List Char := r.id.toList ++ r.formWritten

structure Writable (r : NodeRef) : Prop where
  name : IsStateName r.id
  arrowless : IsArrowless r.id.toList
  trimmed : ∀ label ∈ r.label, IsTrimmed label
  unbracketed : ∀ label ∈ r.label, ∀ c ∈ label.toList, isBracket c = false

instance : DecidablePred Writable := fun r =>
  decidable_of_iff (IsStateName r.id ∧ IsArrowless r.id.toList ∧
      (∀ label ∈ r.label, IsTrimmed label) ∧
      ∀ label ∈ r.label, label.toList.all (!isBracket ·) = true)
    ⟨fun ⟨name, arrowless, trimmed, unbracketed⟩ =>
     ⟨name, arrowless, trimmed, by simpa using unbracketed⟩,
     fun h => ⟨h.name, h.arrowless, h.trimmed, by simpa using h.unbracketed⟩⟩

end NodeRef

/-- An arrow as it is written, with blanks around its label. -/
inductive WrittenArrow where
  | plain
  | piped (lead : List Char) (label : String) (tail : List Char)
  | dashed (lead : List Char) (label : String) (tail : List Char)
  | single
  | singlePiped (lead : List Char) (label : String) (tail : List Char)

namespace WrittenArrow

def written : WrittenArrow → List Char
  | .plain => ['-', '-', '>']
  | .piped lead label tail => '-' :: '-' :: '>' :: '|' :: (lead ++ (label.toList ++ tail) ++ ['|'])
  | .dashed lead label tail => '-' :: '-' :: (lead ++ (label.toList ++ tail) ++ ['-', '-', '>'])
  | .single => ['-', '>']
  | .singlePiped lead label tail => '-' :: '>' :: '|' :: (lead ++ (label.toList ++ tail) ++ ['|'])

def label : WrittenArrow → String
  | .plain => ""
  | .piped _ label _ => label
  | .dashed _ label _ => label
  | .single => ""
  | .singlePiped _ label _ => label

def form : WrittenArrow → Arrow
  | .plain => .plain
  | .piped _ _ _ => .labeled
  | .dashed _ _ _ => .dashed
  | .single => .single
  | .singlePiped _ _ _ => .single

/-- The label can stand between blanks in front of a mark that starts with a character. -/
structure Fits (lead : List Char) (label : String) (tail : List Char) (mark : Char) : Prop where
  lead : IsBlanks lead
  tail : IsBlanks tail
  trimmed : IsTrimmed label
  free : mark ∉ label.toList

instance (lead : List Char) (label : String) (tail : List Char) (mark : Char) :
    Decidable (Fits lead label tail mark) :=
  decidable_of_iff (IsBlanks lead ∧ IsBlanks tail ∧ IsTrimmed label ∧ mark ∉ label.toList)
    ⟨fun ⟨lead, tail, trimmed, free⟩ => ⟨lead, tail, trimmed, free⟩,
     fun h => ⟨h.lead, h.tail, h.trimmed, h.free⟩⟩

/-- A label between pipes has no pipe, and a dashed one has no hyphen and no angle. -/
def Writable : WrittenArrow → Prop
  | .plain => True
  | .piped lead label tail => Fits lead label tail '|'
  | .dashed lead label tail => Fits lead label tail '-' ∧ '>' ∉ label.toList
  | .single => True
  | .singlePiped lead label tail => Fits lead label tail '|'

instance : DecidablePred Writable
  | .plain => inferInstanceAs (Decidable True)
  | .piped _ _ _ => inferInstanceAs (Decidable (Fits _ _ _ _))
  | .dashed _ _ _ => inferInstanceAs (Decidable (Fits _ _ _ _ ∧ _))
  | .single => inferInstanceAs (Decidable True)
  | .singlePiped _ _ _ => inferInstanceAs (Decidable (Fits _ _ _ _))

end WrittenArrow

/-- An arrow to a node, with the blanks around the arrow. -/
structure Link where
  before : List Char
  arrow : WrittenArrow
  after : List Char
  target : NodeRef

namespace Link

def written (l : Link) : List Char := l.before ++ (l.arrow.written ++ (l.after ++ l.target.written))

structure Writable (l : Link) : Prop where
  before : IsBlanks l.before
  arrow : l.arrow.Writable
  after : IsBlanks l.after
  target : l.target.Writable

instance : DecidablePred Writable := fun l =>
  decidable_of_iff (IsBlanks l.before ∧ l.arrow.Writable ∧ IsBlanks l.after ∧ l.target.Writable)
    ⟨fun ⟨before, arrow, after, target⟩ => ⟨before, arrow, after, target⟩,
     fun h => ⟨h.before, h.arrow, h.after, h.target⟩⟩

end Link

namespace Statement

/-- The edges that links draw one after the other. -/
def edgesOf (line : Option Int) : NodeRef → List Link → List Statement
  | _, [] => []
  | source, l :: rest =>
    .edge source l.target l.arrow.label l.arrow.form line :: edgesOf line l.target rest

/-- What a node with links behind it stands for. -/
def ofChain (line : Option Int) (first : NodeRef) : List Link → List Statement
  | [] => [.node first line]
  | l :: rest => edgesOf line first (l :: rest)

/-! ## Names -/

/-- A name ends where the line does, at a character of another kind, or at an arrow. -/
def EndsName (cs : List Char) : Prop :=
  (∀ c ∈ cs.head?, isNameChar c = false) ∨ startsArrow cs = true

theorem readName_append {name rest : List Char} (hname : ∀ c ∈ name, isNameChar c = true)
    (harrow : IsArrowless name) (hrest : EndsName rest) :
    readName (name ++ rest) = (name, rest) := by
  induction name with
  | nil =>
    cases rest with
    | nil => rfl
    | cons c rest =>
      have hstop : (isNameChar c && !startsArrow (c :: rest)) = false := by
        rcases hrest with hother | hstarts
        · simp [hother c rfl]
        · simp [hstarts]
      simp [readName, hstop]
  | cons c name ih =>
    obtain ⟨hc, hmore⟩ := List.forall_mem_cons.mp hname
    have htail : IsArrowless name := by
      refine ⟨fun hinside => harrow.1 (hinside.trans (List.suffix_cons c name).isInfix), ?_⟩
      exact fun hbehind => harrow.2 (hbehind.trans (List.suffix_cons c name))
    -- a hyphen is followed by a character of the name that is neither a hyphen nor an angle
    have hgo : startsArrow (c :: (name ++ rest)) = false := by
      by_cases hhyphen : c = '-'
      · subst hhyphen
        cases name with
        | nil => exact absurd (List.suffix_refl ['-']) harrow.2
        | cons x name =>
          have hx := hmore x List.mem_cons_self
          have hsecond : x ≠ '-' := by
            rintro rfl
            exact harrow.1 ⟨[], name, rfl⟩
          have hthird : x ≠ '>' := by
            rintro rfl
            exact absurd hx (by decide)
          simp [startsArrow, hsecond, hthird]
      · simp [startsArrow, hhyphen]
    have hstep := ih hmore htail
    simp [readName, hc, hgo, hstep]

theorem isNameChar_of_isStateName {id : String} (h : IsStateName id) :
    ∀ c ∈ id.toList, isNameChar c = true := by
  obtain ⟨c, rest, hid, hc, hrest⟩ := h
  rw [hid]
  refine List.forall_mem_cons.mpr ⟨by simp [isNameChar, Char.isAlphanum, hc], fun x hx => ?_⟩
  simpa [isNameChar, or_assoc] using hrest x hx

/-- The characters of names are ASCII. -/
theorem toNat_of_isNameChar {c : Char} (h : isNameChar c = true) : c.toNat < 128 := by
  simp only [isNameChar, Bool.or_eq_true, beq_iff_eq] at h
  rcases h with (halnum | rfl) | rfl
  · have := isAlphanum_iff.mp halnum
    omega
  · decide
  · decide

/-- What the characters of names are not. -/
theorem isNameChar_facts {c : Char} (h : isNameChar c = true) :
    isBlank c = false ∧ isBracket c = false ∧ c ≠ '|' ∧ c ≠ ';' := by
  have hascii := toNat_of_isNameChar h
  revert h
  exact forall_ascii (P := fun c => isNameChar c = true →
    isBlank c = false ∧ isBracket c = false ∧ c ≠ '|' ∧ c ≠ ';') (by decide) hascii

theorem isBracket_of_isBlank {c : Char} (h : isBlank c = true) : isBracket c = false := by
  by_contra hbracket
  rw [Bool.not_eq_false, isBracket, List.contains_iff_mem] at hbracket
  have hall : ['(', ')', '[', ']', '{', '}'].all (!isBlank ·) = true := by decide
  simpa [h] using List.all_eq_true.mp hall c hbracket

/-! ## Nodes -/

theorem readUntil_of_cutAt? {closer : String} (what : Enclosure) {cs : List Char}
    {cut : List Char × List Char} (h : cutAt? closer.toList cs = some cut) :
    readUntil closer what cs = .ok cut := by
  rw [readUntil, h]

theorem unquote_pad {lead tail : List Char} {label : String} (hlead : IsBlanks lead)
    (htail : IsBlanks tail) (h : IsTrimmed label) :
    Label.unquote (lead ++ (label.toList ++ tail)) = label.toList := by
  rw [Label.unquote, trim_pad hlead htail h.1]
  cases hchars : label.toList with
  | nil => rfl
  | cons q rest =>
    have hq := h.2 q (by simp [hchars])
    simp [hq.1, hq.2]

/-- Nothing that can follow a mention opens a bracket. -/
theorem bracketAt?_eq_none {cs : List Char} (h : ∀ c ∈ cs.head?, isBracket c = false) :
    bracketAt? cs = none := by
  cases cs with
  | nil => rfl
  | cons c cs =>
    have hc := h c rfl
    simp only [isBracket, List.contains_cons, Bool.or_eq_false_iff, beq_eq_false_iff_ne] at hc
    obtain ⟨hround, -, hsquare, -, hcurly, -⟩ := hc
    simp [bracketAt?, brackets, behind?, Ne.symm hround, Ne.symm hsquare, Ne.symm hcurly]

/-- The brackets of a shape are told by its opening mark, since no bracket follows it. -/
theorem bracketAt?_marks (shape : Shape) {cs : List Char} (rest : List Char)
    (h : ∀ c ∈ cs, isBracket c = false) :
    ∃ b, b.shape = shape ∧ b.closer.toList = shape.marks.2 ∧
      bracketAt? (shape.marks.1 ++ (cs ++ (shape.marks.2 ++ rest))) =
        some (b, cs ++ (shape.marks.2 ++ rest)) := by
  have hother (mark closer : Char) (hmark : isBracket mark = true) (hcloser : mark ≠ closer) :
      behind? [mark] (cs ++ closer :: rest) = none := by
    cases cs with
    | nil => simp [behind?, hcloser]
    | cons x cs =>
      have hx : mark ≠ x := by
        rintro rfl
        simp [h mark List.mem_cons_self] at hmark
      simp [behind?, hx]
  cases shape with
  | rectangle => exact ⟨⟨"[", "]", .rectangle⟩, rfl, rfl, rfl⟩
  | rounded =>
    refine ⟨⟨"(", ")", .rounded⟩, rfl, rfl, ?_⟩
    have hround := hother '(' ')' rfl (by decide)
    have hsquare := hother '[' ')' rfl (by decide)
    simp [Shape.marks, bracketAt?, brackets, behind?, hround, hsquare]
  | circle => exact ⟨⟨"((", "))", .circle⟩, rfl, rfl, rfl⟩
  | diamond =>
    refine ⟨⟨"\x7b", "\x7d", .diamond⟩, rfl, rfl, ?_⟩
    have hcurly := hother '{' '}' rfl (by decide)
    simp [Shape.marks, bracketAt?, brackets, behind?, hcurly]
  | hexagon => exact ⟨⟨"\x7b\x7b", "\x7d\x7d", .hexagon⟩, rfl, rfl, rfl⟩
  | stadium => exact ⟨⟨"([", "])", .stadium⟩, rfl, rfl, rfl⟩

/-- Behind a mention the line ends, or a blank or an arrow follows. -/
def EndsNode (cs : List Char) : Prop := (∀ c ∈ cs.head?, isBlank c = true) ∨ startsArrow cs = true

theorem EndsNode.endsName {cs : List Char} (h : EndsNode cs) : EndsName cs := by
  refine h.imp_left fun hblank c hc => ?_
  by_contra hname
  rw [Bool.not_eq_false] at hname
  have hfacts := isNameChar_facts hname
  simp [hblank c hc] at hfacts

theorem head?_of_startsArrow {cs : List Char} (h : startsArrow cs = true) :
    cs.head? = some '-' := by
  unfold startsArrow at h
  split at h
  · rfl
  · rfl
  · cases h

theorem EndsNode.bracketAt?_eq_none {cs : List Char} (h : EndsNode cs) : bracketAt? cs = none := by
  refine Statement.bracketAt?_eq_none fun c hc => ?_
  rcases h with hblank | harrow
  · exact isBracket_of_isBlank (hblank c hc)
  · obtain rfl := Option.mem_unique hc (head?_of_startsArrow harrow)
    rfl

theorem readForm_written {r : NodeRef} (h : r.Writable) {rest : List Char} (hrest : EndsNode rest) :
    readForm r.id (r.formWritten ++ rest) = .ok (r.form, rest) := by
  unfold NodeRef.formWritten
  cases hform : r.form with
  | none => simp [readForm, hrest.bracketAt?_eq_none]
  | some form =>
    obtain ⟨shape, label⟩ := form
    have hlabel : label ∈ r.label := by simp [NodeRef.label, hform]
    obtain ⟨b, hshape, hcloser, hb⟩ := bracketAt?_marks shape rest (h.unbracketed label hlabel)
    have hcut : cutAt? b.closer.toList (label.toList ++ (shape.marks.2 ++ rest)) =
        some (label.toList, rest) := by
      have hfree (mark : Char) (hmark : isBracket mark = true) : mark ∉ label.toList := by
        intro hmem
        simp [h.unbracketed label hlabel mark hmem] at hmark
      rw [hcloser]
      cases shape <;> exact cutAt?_mark _ rest (hfree _ rfl)
    have hplain := unquote_pad (List.forall_mem_nil _) (List.forall_mem_nil _)
      (h.trimmed label hlabel)
    simp only [List.nil_append, List.append_nil] at hplain
    simp only [readForm, List.append_assoc, hb, readUntil_of_cutAt? _ hcut, hplain, hshape,
      String.ofList_toList]

theorem endsName_formWritten (r : NodeRef) {rest : List Char} (hrest : EndsNode rest) :
    EndsName (r.formWritten ++ rest) := by
  unfold NodeRef.formWritten
  cases r.form with
  | none => exact hrest.endsName
  | some form =>
    obtain ⟨shape, label⟩ := form
    refine .inl fun c hc => ?_
    cases shape <;> simp [Shape.marks] at hc <;> subst hc <;> rfl

theorem readNode_written {r : NodeRef} (h : r.Writable) {rest : List Char} (hrest : EndsNode rest) :
    readNode (r.written ++ rest) = .ok (r, rest) := by
  obtain ⟨c, cs, hid, hc, -⟩ := h.name
  have hchars := isNameChar_of_isStateName h.name
  have hstart : trimStart (r.written ++ rest) = r.id.toList ++ (r.formWritten ++ rest) := by
    rw [NodeRef.written, hid, List.cons_append, List.cons_append, List.append_assoc]
    exact trimStart_cons _ (isNameChar_facts (hchars c (by simp [hid]))).1
  have hname := readName_append hchars h.arrowless (endsName_formWritten r hrest)
  have hsome : r.id.toList.isEmpty = false := by simp [hid]
  simp only [readNode, hstart, hname, hsome, isStateName_iff.mpr h.name, String.ofList_toList,
    readForm_written h hrest]
  rfl

/-! ## Arrows -/

/-- What follows an arrow: a node, which starts with no blank and with no pipe. -/
def StartsNode (cs : List Char) : Prop := ∃ c rest, cs = c :: rest ∧ isNameChar c = true

theorem startsNode_written {r : NodeRef} (h : r.Writable) (rest : List Char) :
    StartsNode (r.written ++ rest) := by
  obtain ⟨c, cs, hid, -⟩ := h.name
  refine ⟨c, cs ++ (r.formWritten ++ rest), by simp [NodeRef.written, hid], ?_⟩
  exact isNameChar_of_isStateName h.name c (by simp [hid])

theorem StartsNode.trimStart_append {after rest : List Char} (h : StartsNode rest)
    (hafter : IsBlanks after) : trimStart (after ++ rest) = rest := by
  obtain ⟨c, rest, rfl, hc⟩ := h
  rw [Text.trimStart_append hafter]
  exact trimStart_cons _ (isNameChar_facts hc).1

theorem readPipeLabel_bare {after rest : List Char} (hafter : IsBlanks after)
    (hrest : StartsNode rest) :
    readPipeLabel (after ++ rest) = .ok (none, rest) := by
  rw [readPipeLabel, hrest.trimStart_append hafter]
  obtain ⟨c, rest, rfl, hc⟩ := hrest
  have hpipe : c ≠ '|' := (isNameChar_facts hc).2.2.1
  simp [hpipe]

theorem not_mem_pad {lead tail : List Char} {label : String} {mark c : Char}
    (h : WrittenArrow.Fits lead label tail mark) (hc : isBlank c = false)
    (hfree : c ∉ label.toList) :
    c ∉ lead ++ (label.toList ++ tail) := by
  have hblanks {blanks : List Char} (hblanks : IsBlanks blanks) : c ∉ blanks := by
    intro hmem
    simp [hblanks c hmem] at hc
  simp only [List.mem_append, not_or]
  exact ⟨hblanks h.lead, hfree, hblanks h.tail⟩

theorem readPipeLabel_piped {lead tail : List Char} {label : String}
    (h : WrittenArrow.Fits lead label tail '|') (rest : List Char) :
    readPipeLabel ('|' :: (lead ++ (label.toList ++ tail) ++ ('|' :: rest))) =
      .ok (some label, rest) := by
  have hread : readUntil "|" .edgeLabel (lead ++ (label.toList ++ tail) ++ ('|' :: rest)) = .ok _ :=
    readUntil_of_cutAt? _ (cutAt?_mark [] rest (not_mem_pad h (by decide) h.free))
  have hstart : trimStart ('|' :: (lead ++ (label.toList ++ tail) ++ ('|' :: rest))) = _ :=
    trimStart_cons _ (by decide)
  simp only [readPipeLabel, hstart, hread, unquote_pad h.lead h.tail h.trimmed,
    String.ofList_toList]

/-- An arrow is read with its label up to the node behind it. -/
theorem readArrow_written {a : WrittenArrow} (h : a.Writable) {before after rest : List Char}
    (hbefore : IsBlanks before) (hafter : IsBlanks after) (hrest : StartsNode rest) :
    ∃ behind, readArrow (before ++ (a.written ++ (after ++ rest))) = .ok (a.label, a.form, behind) ∧
      trimStart behind = rest := by
  have hstart {cs : List Char} : trimStart (before ++ ('-' :: cs)) = '-' :: cs := by
    rw [trimStart_append hbefore]
    exact trimStart_cons _ (by decide)
  have hbehind := hrest.trimStart_append hafter
  have hself : trimStart rest = rest := hrest.trimStart_append (List.forall_mem_nil _)
  cases a with
  | plain =>
    refine ⟨rest, ?_, hself⟩
    simp [readArrow, WrittenArrow.written, hstart, readPipeLabel_bare hafter hrest,
      WrittenArrow.label, WrittenArrow.form]
  | piped lead label tail =>
    refine ⟨after ++ rest, ?_, hbehind⟩
    have hlabel := readPipeLabel_piped h (after ++ rest)
    simp only [List.append_assoc] at hlabel
    simp [readArrow, WrittenArrow.written, hstart, hlabel, WrittenArrow.label, WrittenArrow.form]
  | dashed lead label tail =>
    refine ⟨after ++ rest, ?_, hbehind⟩
    obtain ⟨hfits, hangle⟩ := h
    have hcut := cutAt?_mark ['-', '>'] (after ++ rest) (not_mem_pad hfits (by decide) hfits.free)
    have hlabel := unquote_pad hfits.lead hfits.tail hfits.trimmed
    have hopen := not_mem_pad hfits (by decide : isBlank '>' = false) hangle
    generalize hinner : lead ++ (label.toList ++ tail) = inner at hcut hlabel hopen
    -- the first character behind the hyphens is no angle, so the arrow goes on to its second half
    have hfirst : ∃ c cs, inner ++ ('-' :: '-' :: '>' :: (after ++ rest)) = c :: cs ∧ c ≠ '>' := by
      cases inner with
      | nil => exact ⟨_, _, rfl, by decide⟩
      | cons c cs => exact ⟨c, _, rfl, fun hc => hopen (hc ▸ List.mem_cons_self)⟩
    obtain ⟨c, cs, hchars, hc⟩ := hfirst
    have hwritten : before ++ ((WrittenArrow.dashed lead label tail).written ++ (after ++ rest)) =
        before ++ '-' :: '-' :: c :: cs := by
      simp [WrittenArrow.written, hinner, ← hchars]
    have hread : readUntil "-->" .dashedLabel (c :: cs) = .ok (inner, after ++ rest) := by
      rw [← hchars]
      exact readUntil_of_cutAt? _ hcut
    rw [hwritten, readArrow, hstart]
    simp [hc, hread, hlabel, WrittenArrow.label, WrittenArrow.form]
  | single =>
    refine ⟨rest, ?_, hself⟩
    simp [readArrow, WrittenArrow.written, hstart, readPipeLabel_bare hafter hrest,
      WrittenArrow.label, WrittenArrow.form]
  | singlePiped lead label tail =>
    refine ⟨after ++ rest, ?_, hbehind⟩
    have hlabel := readPipeLabel_piped h (after ++ rest)
    simp only [List.append_assoc] at hlabel
    simp [readArrow, WrittenArrow.written, hstart, hlabel, WrittenArrow.label, WrittenArrow.form]

/-! ## Chains -/

theorem readNode_trimStart {cs rest : List Char} (h : trimStart cs = trimStart rest) :
    readNode cs = readNode rest := by
  unfold readNode
  rw [h]

/-- Behind an arrow and a node the rest of the chain is read. -/
theorem readEdges_link {line : Option Int} {source target : NodeRef} {cs behind rest : List Char}
    {label : String} {arrow : Arrow} {edges : List Statement}
    (harrow : readArrow cs = .ok (label, arrow, behind))
    (hnode : readNode behind = .ok (target, rest))
    (hedges : readEdges line target rest = .ok edges) :
    readEdges line source cs = .ok (.edge source target label arrow line :: edges) := by
  have hsome : (trimStart cs).isEmpty = false := by
    rw [List.isEmpty_eq_false_iff]
    intro hnil
    rw [readArrow, hnil] at harrow
    cases harrow
  have htarget : (trimStart behind).isEmpty = false := by
    rw [List.isEmpty_eq_false_iff]
    intro hnil
    rw [readNode, hnil] at hnode
    cases hnode
  rw [readEdges]
  simp only [hsome, Bool.false_eq_true, if_false]
  split
  · rename_i hfault
    rw [harrow] at hfault
    cases hfault
  · rename_i label' arrow' behind' hread
    rw [harrow] at hread
    cases hread
    simp only [htarget, Bool.false_eq_true, if_false]
    split
    · rename_i hfault
      rw [hnode] at hfault
      cases hfault
    · rename_i target' rest' hread
      rw [hnode] at hread
      cases hread
      rw [hedges]

/-- The links of a chain as they are written. -/
def written (links : List Link) : List Char := links.flatMap Link.written

theorem endsNode_written {links : List Link} (h : ∀ l ∈ links, l.Writable) :
    EndsNode (written links) := by
  cases links with
  | nil => exact .inl (by simp [written])
  | cons l rest =>
    have hl := h l List.mem_cons_self
    rw [written, List.flatMap_cons, Link.written]
    cases hbefore : l.before with
    | nil => exact .inr (by cases l.arrow <;> rfl)
    | cons c cs =>
      refine .inl fun x hx => ?_
      obtain rfl : c = x := by simpa using hx
      exact hl.before c (by simp [hbefore])

/-- Each arrow that was written is read as an edge from the node in front of it to the node
behind. -/
theorem readEdges_written (line : Option Int) (source : NodeRef) {links : List Link}
    (h : ∀ l ∈ links, l.Writable) :
    readEdges line source (written links) = .ok (edgesOf line source links) := by
  induction links generalizing source with
  | nil =>
    rw [readEdges]
    rfl
  | cons l rest ih =>
    obtain ⟨hl, hrest⟩ := List.forall_mem_cons.mp h
    have hends := endsNode_written hrest
    have hwritten : written (l :: rest) =
        l.before ++ (l.arrow.written ++ (l.after ++ (l.target.written ++ written rest))) := by
      simp [written, Link.written]
    obtain ⟨behind, harrow, hbehind⟩ :=
      readArrow_written hl.arrow hl.before hl.after (startsNode_written hl.target (written rest))
    have hself : trimStart (l.target.written ++ written rest) = l.target.written ++ written rest :=
      (startsNode_written hl.target (written rest)).trimStart_append (List.forall_mem_nil _)
    have hnode : readNode behind = .ok (l.target, written rest) := by
      rw [readNode_trimStart (hbehind.trans hself.symm)]
      exact readNode_written hl.target hends
    rw [hwritten]
    exact readEdges_link harrow hnode (ih l.target hrest)

/-- The last character of a mention is one of its name or a bracket. -/
theorem last_written {r : NodeRef} (h : r.Writable) :
    ∃ front c, r.written = front ++ [c] ∧ isBlank c = false ∧ c ≠ ';' := by
  cases hform : r.form with
  | none =>
    obtain ⟨c, cs, hid, -⟩ := h.name
    have hne : r.id.toList ≠ [] := by simp [hid]
    refine ⟨r.id.toList.dropLast, r.id.toList.getLast hne, ?_, ?_⟩
    · simp [NodeRef.written, NodeRef.formWritten, hform, List.dropLast_concat_getLast hne]
    · have hfacts := isNameChar_facts (isNameChar_of_isStateName h.name _ (List.getLast_mem hne))
      exact ⟨hfacts.1, hfacts.2.2.2⟩
  | some form =>
    obtain ⟨shape, label⟩ := form
    have hclosed : ∃ mark, shape.marks.2.getLast? = some mark ∧ isBlank mark = false ∧
        mark ≠ ';' := by
      cases shape <;> exact ⟨_, rfl, by decide, by decide⟩
    obtain ⟨mark, hmark, hfacts⟩ := hclosed
    obtain ⟨front, hfront⟩ := List.getLast?_eq_some_iff.mp hmark
    refine ⟨r.id.toList ++ (shape.marks.1 ++ (label.toList ++ front)), mark, ?_, hfacts⟩
    simp [NodeRef.written, NodeRef.formWritten, hform, hfront]

/-- Nothing at the ends of a chain is taken off. -/
theorem lineBody_written {first : NodeRef} (hfirst : first.Writable) {links : List Link}
    (hlinks : ∀ l ∈ links, l.Writable) :
    lineBody (first.written ++ written links) = first.written ++ written links := by
  have hlast : ∃ front c, first.written ++ written links = front ++ [c] ∧ isBlank c = false ∧
      c ≠ ';' := by
    rcases links.eq_nil_or_concat with rfl | ⟨init, l, rfl⟩
    · simpa [written] using last_written hfirst
    · obtain ⟨front, c, hchars, hc⟩ := last_written (hlinks l (by simp)).target
      refine ⟨first.written ++
        (written init ++ (l.before ++ (l.arrow.written ++ (l.after ++ front)))), c, ?_, hc⟩
      simp [written, Link.written, hchars]
  have hstart := (startsNode_written hfirst (written links)).trimStart_append
    (List.forall_mem_nil _)
  rw [List.nil_append] at hstart
  obtain ⟨front, c, hchars, hblank, hsemicolon⟩ := hlast
  rw [lineBody, trim, hstart, hchars]
  simp [trimEnd, dropEndWhile, hblank, hsemicolon]

theorem readName_written {first : NodeRef} (hfirst : first.Writable) {links : List Link}
    (hlinks : ∀ l ∈ links, l.Writable) : readName (first.written ++ written links) =
      (first.id.toList, first.formWritten ++ written links) := by
  rw [NodeRef.written, List.append_assoc]
  exact readName_append (isNameChar_of_isStateName hfirst.name) hfirst.arrowless
    (endsName_formWritten first (endsNode_written hlinks))

/-- A word with a blank behind it at the front of a chain is the name of its first node. -/
theorem id_of_behind? {first : NodeRef} (hfirst : first.Writable) {links : List Link}
    (hlinks : ∀ l ∈ links, l.Writable) {word rest : List Char}
    (hword : ∀ c ∈ word, isNameChar c = true) (harrow : IsArrowless word)
    (hbehind : behind? word (first.written ++ written links) = some rest)
    (hblank : rest.head?.any isBlank = true) :
    first.id.toList = word ∧ rest = first.formWritten ++ written links := by
  have hends : EndsNode rest := by
    refine .inl fun c hc => ?_
    rw [Option.mem_def.mp hc] at hblank
    exact hblank
  have hread := readName_written hfirst hlinks
  rw [behind?_eq_some_iff.mp hbehind, readName_append hword harrow hends.endsName] at hread
  obtain ⟨rfl, rfl⟩ := Prod.mk.inj hread
  exact ⟨rfl, rfl⟩

theorem classDefBody?_written {first : NodeRef} (hfirst : first.Writable)
    (hname : first.id ≠ "classDef")
    {links : List Link} (hlinks : ∀ l ∈ links, l.Writable) :
    classDefBody? (first.written ++ written links) = none := by
  unfold classDefBody?
  split
  · rename_i rest hbehind
    split_ifs with hblank
    · obtain ⟨hid, -⟩ := id_of_behind? hfirst hlinks (List.all_eq_true.mp (by decide))
        (isArrowless_of_not_mem (by decide)) hbehind hblank
      exact absurd (String.toList_inj.mp hid) hname
    · rfl
  · rfl

/-- Behind `class` as the name of a node no letter follows a blank, but an arrow. -/
theorem assignmentBody?_written {first : NodeRef} (hfirst : first.Writable) {links : List Link}
    (hlinks : ∀ l ∈ links, l.Writable) :
    assignmentBody? (first.written ++ written links) = none := by
  unfold assignmentBody?
  split
  · rename_i rest hbehind
    split_ifs with hletter
    · rw [Bool.and_eq_true] at hletter
      obtain ⟨-, rfl⟩ := id_of_behind? hfirst hlinks (List.all_eq_true.mp (by decide))
        (isArrowless_of_not_mem (by decide)) hbehind hletter.1
      obtain ⟨hblank, hletter⟩ := hletter
      cases hform : first.form with
      | none =>
        have hbare : first.formWritten ++ written links = written links := by
          simp [NodeRef.formWritten, hform]
        rw [hbare] at hletter
        cases links with
        | nil => cases hletter
        | cons l rest =>
          have hstart : ∃ cs, trimStart (written (l :: rest)) = '-' :: cs := by
            rw [written, List.flatMap_cons, Link.written, List.append_assoc,
              trimStart_append (hlinks l List.mem_cons_self).before]
            cases l.arrow <;> exact ⟨_, trimStart_cons _ (by decide)⟩
          obtain ⟨cs, hcs⟩ := hstart
          rw [hcs] at hletter
          cases hletter
      | some form =>
        obtain ⟨shape, label⟩ := form
        rw [NodeRef.formWritten, hform] at hblank
        cases shape <;> cases hblank
    · rfl
  · rfl

/-- A chain that was written is read back: a node alone, or one edge for each arrow. -/
theorem read_written (line : Option Int) {first : NodeRef} {links : List Link}
    (hfirst : first.Writable)
    (hname : first.id ≠ "classDef") (hlinks : ∀ l ∈ links, l.Writable) :
    read line (first.written ++ written links) = .ok (ofChain line first links) := by
  have hnode := readNode_written hfirst (endsNode_written hlinks)
  have hedges := readEdges_written line first hlinks
  have hsome : (first.written ++ written links).isEmpty = false := by
    obtain ⟨c, rest, hchars, -⟩ := startsNode_written hfirst (written links)
    rw [hchars]
    rfl
  have hchain : readChain line (first.written ++ written links) =
      .ok (ofChain line first links) := by
    have hplain (inner : List Char) : written links ≠ '@' :: '{' :: inner := by
      intro hat
      rcases endsNode_written hlinks with hblank | harrow
      · exact absurd (hblank '@' (by rw [hat]; rfl)) (by decide)
      · rw [hat] at harrow
        cases harrow
    rw [readChain, hnode]
    dsimp only
    split
    · rename_i inner _ hat
      exact absurd hat (hplain inner)
    · rw [hedges]
      cases links <;> rfl
  simp only [read, lineBody_written hfirst hlinks, hsome, classDefBody?_written hfirst hname hlinks,
    assignmentBody?_written hfirst hlinks, hchain]
  rfl

/-- Links of three forms, to a node with a hyphen, to one with an empty label and to a plain one. -/
def tour : List Link :=
  [⟨[' '], .dashed [' '] "go on" [], [], ⟨"main-menu", some (.stadium, "Main Menu")⟩⟩,
   ⟨[], .singlePiped [] "" ['\t'], [' '], ⟨"classDef", some (.circle, "")⟩⟩,
   ⟨[], .plain, [], ⟨"End", none⟩⟩]

theorem read_written_tour :
    read (some 3) "class -- go on-->main-menu([Main Menu])->|\t| classDef(())-->End".toList = .ok
      [.edge ⟨"class", none⟩ ⟨"main-menu", some (.stadium, "Main Menu")⟩ "go on" .dashed (some 3),
       .edge ⟨"main-menu", some (.stadium, "Main Menu")⟩ ⟨"classDef", some (.circle, "")⟩ ""
         .single (some 3),
       .edge ⟨"classDef", some (.circle, "")⟩ ⟨"End", none⟩ "" .plain (some 3)] := by
  have htext : "class -- go on-->main-menu([Main Menu])->|\t| classDef(())-->End".toList =
      NodeRef.written ⟨"class", none⟩ ++ written tour := by decide +kernel
  rw [htext]
  exact read_written (some 3) (by decide +kernel) (by decide) (by decide +kernel)

end Statement

end FlowMachine
