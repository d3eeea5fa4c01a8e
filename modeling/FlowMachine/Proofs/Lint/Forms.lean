import FlowMachine.Lint
import FlowMachine.Proofs.Diagram.Written

/-!
# Forms, names and arrows to the lint and to the reader

The lint and the reader walk along a transition line in the same steps: a name, a form behind it, an
arrow. They find the same names and the same arrows and differ at the forms. The lint passes over
what stands between any marks it knows, and when the longer marks are not closed it falls back to
the shorter ones; reading knows fewer marks and takes the longest opening mark at its word. A form
is foreign when they differ there. A form that is not foreign ends at one place for both, and behind
a foreign one the reader finds no arrow, or fails in the form itself.
-/
namespace FlowMachine.Lint

open FlowMachine.Text

/-! ## Forms -/

/-- Marks that reading wants closed once they are open. -/
def strictMarks : List (String × String) := [("((", "))"), ("([", "])"), ("\x7b\x7b", "\x7d\x7d")]

/-- The text behind a name starts with a form that reading does not take as the lint does: marks
that it does not know, or the longer marks left open. -/
def isForeign (tail : List Char) : Bool :=
  (behind? ">".toList tail).any (occurs "]".toList) ||
    (behind? "[[".toList tail).any (occurs "]]".toList) ||
    strictMarks.any fun marks => (behind? marks.1.toList tail).any (!occurs marks.2.toList ·)

/-- A form between double square brackets with a single closing one inside. -/
def isCrossed (tail : List Char) : Bool :=
  ((behind? "[[".toList tail).bind (cutAt? "]]".toList)).any fun cut => cut.1.contains ']'

/-- Where a form may start. -/
def isOpener (c : Char) : Bool := ['(', '[', '{', '>'].contains c

theorem skipForm_eq_self {tail : List Char} (h : ∀ c ∈ tail.head?, isOpener c = false) :
    skipForm tail = tail := by
  cases tail with
  | nil => rfl
  | cons c cs =>
    have hc := h c rfl
    simp only [isOpener, List.contains_cons, Bool.or_eq_false_iff, beq_eq_false_iff_ne] at hc
    obtain ⟨hround, hsquare, hcurly, hangle, -⟩ := hc
    simp [skipForm, forms, behind?, Ne.symm hround, Ne.symm hsquare, Ne.symm hcurly, Ne.symm hangle]

/-- How a form can start, the longer marks told apart from the shorter ones. -/
inductive Opening : List Char → Prop
  | none {tail : List Char} (h : ∀ c ∈ tail.head?, isOpener c = false) : Opening tail
  | circle (inner : List Char) : Opening ('(' :: '(' :: inner)
  | stadium (inner : List Char) : Opening ('(' :: '[' :: inner)
  | rounded {inner : List Char} (hround : behind? ['('] inner = Option.none)
      (hsquare : behind? ['['] inner = Option.none) : Opening ('(' :: inner)
  | double (inner : List Char) : Opening ('[' :: '[' :: inner)
  | rectangle {inner : List Char} (hsquare : behind? ['['] inner = Option.none) : Opening
      ('[' :: inner)
  | hexagon (inner : List Char) : Opening ('{' :: '{' :: inner)
  | diamond {inner : List Char} (hcurly : behind? ['{'] inner = Option.none) : Opening
      ('{' :: inner)
  | angle (inner : List Char) : Opening ('>' :: inner)

theorem opening : (tail : List Char) → Opening tail
  | [] => .none (by simp)
  | c :: cs => by
    have hnext (mark : Char) : (∃ inner, cs = mark :: inner) ∨ behind? [mark] cs = none := by
      cases hbehind : behind? [mark] cs with
      | none => exact .inr rfl
      | some inner => exact .inl ⟨inner, behind?_eq_some_iff.mp hbehind⟩
    by_cases hopener : isOpener c = true
    · simp only [isOpener, List.contains_iff_mem, List.mem_cons, List.not_mem_nil,
        or_false] at hopener
      rcases hopener with rfl | rfl | rfl | rfl
      · obtain ⟨inner, rfl⟩ | hround := hnext '('
        · exact .circle inner
        · obtain ⟨inner, rfl⟩ | hsquare := hnext '['
          · exact .stadium inner
          · exact .rounded hround hsquare
      · obtain ⟨inner, rfl⟩ | hsquare := hnext '['
        · exact .double inner
        · exact .rectangle hsquare
      · obtain ⟨inner, rfl⟩ | hcurly := hnext '{'
        · exact .hexagon inner
        · exact .diamond hcurly
      · exact .angle cs
    · refine .none fun x hx => ?_
      obtain rfl : c = x := by simpa using hx
      simpa using hopener

theorem startsArrow_of_readArrow? {cs behind : List Char} {label : Option (List Char)}
    (h : readArrow? cs = some (label, behind)) : Statement.startsArrow (trimStart cs) = true := by
  rw [readArrow?] at h
  split at h
  · rename_i heq
    rw [heq]
    rfl
  · rename_i heq
    rw [heq]
    rfl
  · rename_i heq
    rw [heq]
    rfl
  · cases h

/-- Behind a name the line ends, or an arrow and another name follow. -/
theorem readLinks?_cases {cs : List Char} {more : Chain} (h : readLinks? cs = some more) :
    (cs = [] ∧ more.names = []) ∨
    ∃ label behind name rest next, readArrow? cs = some (label, behind) ∧
      readName? behind = some (name, rest) ∧ readLinks? rest = some next ∧
      more.names = name :: next.names := by
  rw [readLinks?] at h
  split_ifs at h with hend
  · exact .inl ⟨by simpa using hend, by rw [← Option.some.inj h]⟩
  · split at h
    · cases h
    · rename_i label behind harrow
      split at h
      · cases h
      · rename_i name rest hname
        split at h
        · cases h
        · rename_i next hnext
          exact .inr ⟨label, behind, name, rest, next, harrow, hname, hnext,
            by rw [← Option.some.inj h]⟩

theorem endsNode_of_readLinks? {cs : List Char} {more : Chain} (h : readLinks? cs = some more) :
    Statement.EndsNode cs := by
  obtain ⟨rfl, -⟩ | ⟨label, behind, name, rest, next, harrow, -⟩ := readLinks?_cases h
  · exact .inl (by simp)
  · have hstarts := startsArrow_of_readArrow? harrow
    cases cs with
    | nil => cases hstarts
    | cons c cs =>
      by_cases hc : isBlank c = true
      · refine .inl fun x hx => ?_
        obtain rfl : c = x := by simpa using hx
        exact hc
      · rw [trimStart_cons _ (by simpa using hc)] at hstarts
        exact .inr hstarts

theorem isOpener_of_endsNode {cs : List Char} (h : Statement.EndsNode cs) :
    ∀ c ∈ cs.head?, isOpener c = false := by
  intro c hc
  rcases h with hblank | harrow
  · by_contra hopener
    rw [Bool.not_eq_false, isOpener, List.contains_iff_mem] at hopener
    have hall : ['(', '[', '{', '>'].all (!isBlank ·) = true := by decide
    simpa [hblank c hc] using List.all_eq_true.mp hall c hopener
  · obtain rfl := Option.mem_unique hc (Statement.head?_of_startsArrow harrow)
    rfl

/-- The form that reading finds at the front of a text, up to its end. -/
def formRead? (tail : List Char) : Option (List Char) :=
  (Statement.bracketAt? tail).bind fun found => (cutAt? found.1.closer.toList found.2).map Prod.snd

theorem bracketAt?_eq_none {tail : List Char} (h : ∀ c ∈ tail.head?, isOpener c = false) :
    Statement.bracketAt? tail = none := by
  cases tail with
  | nil => rfl
  | cons c cs =>
    have hc := h c rfl
    simp only [isOpener, List.contains_cons, Bool.or_eq_false_iff, beq_eq_false_iff_ne] at hc
    obtain ⟨hround, hsquare, hcurly, -, -⟩ := hc
    simp [Statement.bracketAt?, Statement.brackets, behind?, Ne.symm hround, Ne.symm hsquare,
      Ne.symm hcurly]

/-- Where the form is not foreign, the lint passes over what reading finds between its brackets. -/
theorem skipForm_eq_of_not_foreign {tail : List Char} (hforeign : isForeign tail = false) :
    skipForm tail = (formRead? tail).getD tail := by
  cases opening tail with
  | none hnone => simp [skipForm_eq_self hnone, formRead?, bracketAt?_eq_none hnone]
  | circle inner =>
    simp [isForeign, behind?, strictMarks, occurs, Option.isSome_iff_exists] at hforeign
    obtain ⟨label, rest, hcut⟩ := hforeign
    simp [skipForm, forms, formRead?, Statement.bracketAt?, Statement.brackets, behind?, hcut]
  | stadium inner =>
    simp [isForeign, behind?, strictMarks, occurs, Option.isSome_iff_exists] at hforeign
    obtain ⟨label, rest, hcut⟩ := hforeign
    simp [skipForm, forms, formRead?, Statement.bracketAt?, Statement.brackets, behind?, hcut]
  | @rounded inner hround hsquare =>
    cases hcut : cutAt? [')'] inner <;>
      simp [skipForm, forms, formRead?, Statement.bracketAt?, Statement.brackets, behind?, hround,
        hsquare, hcut]
  | double inner =>
    simp [isForeign, behind?, strictMarks, occurs] at hforeign
    cases hcut : cutAt? [']'] ('[' :: inner) <;>
      simp [skipForm, forms, formRead?, Statement.bracketAt?, Statement.brackets, behind?,
        hforeign, hcut]
  | @rectangle inner hsquare =>
    cases hcut : cutAt? [']'] inner <;>
      simp [skipForm, forms, formRead?, Statement.bracketAt?, Statement.brackets, behind?,
        hsquare, hcut]
  | hexagon inner =>
    simp [isForeign, behind?, strictMarks, occurs, Option.isSome_iff_exists] at hforeign
    obtain ⟨label, rest, hcut⟩ := hforeign
    simp [skipForm, forms, formRead?, Statement.bracketAt?, Statement.brackets, behind?, hcut]
  | @diamond inner hcurly =>
    cases hcut : cutAt? ['}'] inner <;>
      simp [skipForm, forms, formRead?, Statement.bracketAt?, Statement.brackets, behind?,
        hcurly, hcut]
  | angle inner =>
    simp [isForeign, behind?, strictMarks, occurs] at hforeign
    simp [skipForm, forms, formRead?, Statement.bracketAt?, Statement.brackets, behind?, hforeign]

/-- A form that is not foreign is read to the end at which the lint passed over it. -/
theorem readForm_skipForm (id : String) {tail : List Char} {more : Chain}
    (h : readLinks? (skipForm tail) = some more) (hforeign : isForeign tail = false) :
    ∃ form, Statement.readForm id tail = .ok (form, skipForm tail) := by
  -- a form that is open and not passed over would stand where the lint found an arrow or the end
  have hopen (hself : skipForm tail = tail) : ∀ c ∈ tail.head?, isOpener c = false := by
    rw [hself] at h
    exact isOpener_of_endsNode (endsNode_of_readLinks? h)
  have hskip := skipForm_eq_of_not_foreign hforeign
  cases hb : Statement.bracketAt? tail with
  | none =>
    simp only [formRead?, hb, Option.bind_none, Option.getD_none] at hskip
    rw [Statement.readForm, hb, hskip]
    exact ⟨none, rfl⟩
  | some found =>
    cases hcut : cutAt? found.1.closer.toList found.2 with
    | none =>
      simp only [formRead?, hb, hcut, Option.bind_some, Option.map_none, Option.getD_none] at hskip
      rw [bracketAt?_eq_none (hopen hskip)] at hb
      cases hb
    | some cut =>
      simp only [formRead?, hb, hcut, Option.bind_some, Option.map_some, Option.getD_some] at hskip
      simp only [Statement.readForm, hb, Statement.readUntil_of_cutAt? _ hcut, hskip]
      exact ⟨_, rfl⟩

/-- Behind a foreign form reading finds no arrow. -/
theorem readForm_foreign {id : String} {tail rest : List Char} {form : Option (Shape × String)}
    (hforeign : isForeign tail = true) (hcrossed : isCrossed tail = false)
    (hread : Statement.readForm id tail = .ok (form, rest)) :
    ∃ c cs, rest = c :: cs ∧ (c = '>' ∨ c = ']') := by
  cases opening tail with
  | none hnone =>
    cases tail with
    | nil => cases hforeign
    | cons c cs =>
      have hc := hnone c rfl
      simp only [isOpener, List.contains_cons, Bool.or_eq_false_iff, beq_eq_false_iff_ne] at hc
      obtain ⟨hround, hsquare, hcurly, hangle, -⟩ := hc
      simp [isForeign, strictMarks, behind?, Ne.symm hround, Ne.symm hsquare, Ne.symm hcurly,
        Ne.symm hangle] at hforeign
  | circle inner =>
    simp [isForeign, behind?, strictMarks, occurs] at hforeign
    simp [Statement.readForm, Statement.bracketAt?, Statement.brackets, behind?,
      Statement.readUntil, hforeign] at hread
  | stadium inner =>
    simp [isForeign, behind?, strictMarks, occurs] at hforeign
    simp [Statement.readForm, Statement.bracketAt?, Statement.brackets, behind?,
      Statement.readUntil, hforeign] at hread
  | rounded hround hsquare => simp [isForeign, behind?, strictMarks, hround, hsquare] at hforeign
  | double inner =>
    simp [isForeign, behind?, strictMarks, occurs, Option.isSome_iff_exists] at hforeign
    obtain ⟨label, after, hcut⟩ := hforeign
    simp [isCrossed, behind?, hcut] at hcrossed
    -- the first closing bracket is the first of the two, and the second one is left
    have hmark : ']' ∉ '[' :: label := by simp [hcrossed]
    have hread' : cutAt? [']'] ('[' :: inner) = some ('[' :: label, ']' :: after) := by
      rw [eq_of_cutAt? hcut]
      exact cutAt?_mark [] (']' :: after) hmark
    simp [Statement.readForm, Statement.bracketAt?, Statement.brackets, behind?,
      Statement.readUntil, hread'] at hread
    exact ⟨_, _, hread.2.symm, .inr rfl⟩
  | rectangle hsquare => simp [isForeign, behind?, strictMarks, hsquare] at hforeign
  | hexagon inner =>
    simp [isForeign, behind?, strictMarks, occurs] at hforeign
    simp [Statement.readForm, Statement.bracketAt?, Statement.brackets, behind?,
      Statement.readUntil, hforeign] at hread
  | diamond hcurly => simp [isForeign, behind?, strictMarks, hcurly] at hforeign
  | angle inner =>
    cases hread
    exact ⟨_, _, rfl, .inl rfl⟩

/-! ## Names and arrows -/

theorem isNameChar_of_isPlain {c : Char} (h : isPlain c = true) :
    Statement.isNameChar c = true := by
  rw [isPlain] at h
  rw [Statement.isNameChar, h, Bool.true_or]

theorem isArrowless_cons {c : Char} {name : List Char} (h : IsArrowless name)
    (hhyphen : c = '-' → ∃ x ∈ name.head?, x ≠ '-') : IsArrowless (c :: name) := by
  constructor
  · intro hinside
    rcases List.infix_cons_iff.mp hinside with hfront | hinner
    · obtain ⟨rfl, hnext⟩ := List.cons_prefix_cons.mp hfront
      obtain ⟨x, hx, hne⟩ := hhyphen rfl
      cases name with
      | nil => cases hx
      | cons y name =>
        obtain ⟨rfl, -⟩ := List.cons_prefix_cons.mp hnext
        exact hne (by simpa using hx.symm)
    · exact h.1 hinner
  · intro hbehind
    rcases List.suffix_cons_iff.mp hbehind with hwhole | hinner
    · obtain ⟨rfl, rfl⟩ := List.cons.inj hwhole
      obtain ⟨x, hx, -⟩ := hhyphen rfl
      cases hx
    · exact h.2 hinner

/-- The lint's names have no arrow inside: a hyphen is taken only in front of a plain character. -/
theorem readHyphenated_spec (cs : List Char) :
    (readHyphenated cs).1 ++ (readHyphenated cs).2 = cs ∧
      (∀ c ∈ (readHyphenated cs).1, Statement.isNameChar c = true) ∧
      IsArrowless (readHyphenated cs).1 := by
  induction cs with
  | nil => exact ⟨rfl, by simp [readHyphenated], isArrowless_of_not_mem (by simp [readHyphenated])⟩
  | cons c cs ih =>
    obtain ⟨hwhole, hchars, harrow⟩ := ih
    rw [readHyphenated]
    split_ifs with htaken
    · refine ⟨by simp [hwhole], ?_, ?_⟩
      · refine List.forall_mem_cons.mpr ⟨?_, hchars⟩
        rcases Bool.or_eq_true_iff.mp htaken with hplain | hhyphen
        · exact isNameChar_of_isPlain hplain
        · obtain ⟨rfl, -⟩ : c = '-' ∧ _ := by simpa using hhyphen
          rfl
      · refine isArrowless_cons harrow ?_
        rintro rfl
        have hnext : cs.head?.any isPlain = true := by simpa [isPlain] using htaken
        cases cs with
        | nil => cases hnext
        | cons x cs =>
          have hx : isPlain x = true := hnext
          refine ⟨x, by simp [readHyphenated, hx], ?_⟩
          rintro rfl
          exact absurd hx (by decide)
    · exact ⟨rfl, by simp, isArrowless_of_not_mem (by simp)⟩

theorem readName?_spec {cs name rest : List Char} (h : readName? cs = some (name, rest)) :
    cs.head?.any isPlain = true ∧ (readHyphenated cs).1 = name ∧
      skipForm (readHyphenated cs).2 = rest := by
  rw [readName?] at h
  split_ifs at h with hplain
  obtain ⟨hname, hrest⟩ := Prod.mk.inj (Option.some.inj h)
  exact ⟨hplain, hname, hrest⟩

theorem trimStart_of_isPlain {cs : List Char} (h : cs.head?.any isPlain = true) :
    trimStart cs = cs := by
  cases cs with
  | nil => cases h
  | cons c cs => exact trimStart_cons _ (Statement.isNameChar_facts (isNameChar_of_isPlain h)).1

theorem readPipeLabel_of_readPipe {cs behind : List Char} {label : Option (List Char)}
    (h : readPipe cs = (label, behind)) (hplain : behind.head?.any isPlain = true) :
    ∃ found rest, Statement.readPipeLabel cs = .ok (found, rest) ∧ trimStart rest = behind := by
  rw [readPipe] at h
  split at h
  · rename_i inner hinner
    split at h
    · rename_i cut hcut
      obtain ⟨-, rfl⟩ := Prod.mk.inj h
      have hread : Statement.readUntil "|" .edgeLabel inner = .ok cut :=
        Statement.readUntil_of_cutAt? _ hcut
      simp only [Statement.readPipeLabel, hinner, hread]
      exact ⟨_, _, rfl, rfl⟩
    · obtain ⟨-, rfl⟩ := Prod.mk.inj h
      cases hplain
  · rename_i hpipe
    obtain ⟨-, rfl⟩ := Prod.mk.inj h
    refine ⟨none, trimStart cs, ?_, trimStart_of_isPlain hplain⟩
    rw [Statement.readPipeLabel]
    split
    · rename_i inner hinner
      exact absurd hinner (hpipe inner)
    · rfl

/-- An arrow in front of a name is the same arrow to both. -/
theorem readArrow_of_readArrow? {cs behind : List Char} {label : Option (List Char)}
    (h : readArrow? cs = some (label, behind)) (hplain : behind.head?.any isPlain = true) :
    ∃ found arrow rest, Statement.readArrow cs = .ok (found, arrow, rest) ∧
      trimStart rest = behind := by
  rw [readArrow?] at h
  split at h
  · rename_i rest hrest
    obtain ⟨found, rest', hpipe, hbehind⟩ := readPipeLabel_of_readPipe (Option.some.inj h) hplain
    rw [Statement.readArrow, hrest]
    simp only [hpipe]
    cases found with
    | none => exact ⟨_, _, _, rfl, hbehind⟩
    | some label => exact ⟨_, _, _, rfl, hbehind⟩
  · rename_i rest hangle hrest
    obtain ⟨cut, hcut, hparts⟩ := Option.map_eq_some_iff.mp h
    obtain ⟨-, rfl⟩ := Prod.mk.inj hparts
    -- the blanks in front of the label hold no hyphen
    have hblanks : '-' ∉ rest.takeWhile isBlank := by
      intro hmem
      exact absurd (List.mem_takeWhile_imp hmem) (by decide)
    have hwhole : cutAt? "-->".toList rest = some (rest.takeWhile isBlank ++ cut.1, cut.2) := by
      have happend := cutAt?_append ['-', '>'] (trimStart rest) hblanks
      rw [trimStart, List.takeWhile_append_dropWhile, ← trimStart] at happend
      have hcut' : cutAt? ['-', '-', '>'] (trimStart rest) = some cut := hcut
      rw [hcut'] at happend
      exact happend
    have hread : Statement.readUntil "-->" .dashedLabel rest = .ok _ :=
      Statement.readUntil_of_cutAt? _ hwhole
    rw [Statement.readArrow, hrest]
    split
    · rename_i heq
      cases heq
      exact absurd rfl (hangle _)
    · rename_i heq
      cases heq
      simp only [hread]
      exact ⟨_, _, _, rfl, rfl⟩
    · rename_i heq
      cases heq
    · rename_i hdash _
      exact absurd rfl (hdash _)
  · rename_i rest hrest
    obtain ⟨found, rest', hpipe, hbehind⟩ := readPipeLabel_of_readPipe (Option.some.inj h) hplain
    rw [Statement.readArrow, hrest]
    simp only [hpipe]
    exact ⟨_, _, _, rfl, hbehind⟩
  · cases h

end FlowMachine.Lint
