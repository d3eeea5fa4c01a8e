import FlowMachine.Proofs.Diagram.Blocks
import FlowMachine.Proofs.Text.Marks
import FlowMachine.Proofs.Text.Pieces

/-!
# Extents of blocks

A fence or a line that declares a flowchart is a mark. Every declaring line starts a block, and the
block holds the lines of the source behind it up to the next mark. So a line tells its block by the
last mark in front of it, and a line that is a mark itself belongs to none.
-/
namespace FlowMachine

open FlowMachine.Text

namespace Text

/-- The line of a text with a number, counted from one. -/
def lineAt? (cs : List Char) : Nat → Option (List Char)
  | 0 => none
  | n + 1 => (lines cs)[n]?

theorem isBlank_of_isAlpha {c : Char} (h : c.isAlpha = true) : isBlank c = false := by
  have hc : c.toNat < 128 := by
    have halnum : c.isAlphanum = true := by simp [Char.isAlphanum, h]
    have := isAlphanum_iff.mp halnum
    omega
  revert h
  exact forall_ascii (P := fun c => c.isAlpha = true → isBlank c = false) (by decide +kernel) hc

theorem exists_blanks (cs : List Char) : ∃ gap, IsBlanks gap ∧ cs = gap ++ trimStart cs :=
  ⟨cs.takeWhile isBlank, fun _ hc => List.mem_takeWhile_imp hc,
    List.takeWhile_append_dropWhile.symm⟩

end Text

namespace Block

/-! ## Marks -/

/-- What may stand behind a declaring keyword: a direction with blanks around it and a semicolon
that may be missing. -/
def Directs (direction : String) (cs : List Char) : Prop :=
  ∃ gap pad semicolon tail, IsBlanks gap ∧ (∀ c ∈ direction.toList, c.isAlpha = true) ∧
    IsBlanks pad ∧
    (semicolon = [] ∨ semicolon = [';']) ∧ IsBlanks tail ∧
    cs = gap ++ (direction.toList ++ (pad ++ (semicolon ++ tail)))

/-- The line declares a flowchart: a keyword that ends where a word does, and a direction. -/
def Declares (keyword direction : String) (line : List Char) : Prop :=
  (keyword = "flowchart" ∨ keyword = "graph") ∧
    ∃ rest, line = keyword.toList ++ rest ∧ wordEnds rest = true ∧ Directs direction rest

/-- The line opens or closes code. -/
def IsFence (raw : List Char) : Prop := "```".toList <+: trim raw

/-- The line starts a block. -/
def IsStart (keyword direction : String) (raw : List Char) : Prop :=
  ¬ IsFence raw ∧ Declares keyword direction (trim raw)

/-- The line is a fence or starts a block. -/
def IsMark (raw : List Char) : Prop :=
  IsFence raw ∨ ∃ keyword direction, IsStart keyword direction raw

theorem directs_of_directionOf? {cs : List Char} {direction : String}
    (h : directionOf? cs = some direction) : Directs direction cs := by
  obtain ⟨gap, hgap, hcs⟩ := exists_blanks cs
  obtain ⟨pad, hpad, hrest⟩ := exists_blanks ((trimStart cs).dropWhile Char.isAlpha)
  have hletters := List.takeWhile_append_dropWhile (p := Char.isAlpha) (l := trimStart cs)
  have hall : ∀ c ∈ (trimStart cs).takeWhile Char.isAlpha, c.isAlpha = true :=
    fun c hc => List.mem_takeWhile_imp hc
  unfold directionOf? at h
  dsimp only at h
  split_ifs at h with hend
  obtain rfl := Option.some.inj h
  rw [← hletters, hrest] at hcs
  split at hend
  · rename_i after hsemicolon
    refine ⟨gap, pad, [';'], after, hgap, by simpa using hall, hpad, .inr rfl, ?_, ?_⟩
    · simpa [trimStart, IsBlanks] using hend
    · rw [String.toList_ofList]
      rwa [hsemicolon] at hcs
  · refine ⟨gap, pad, [], [], hgap, by simpa using hall, hpad, .inl rfl, by simp [IsBlanks], ?_⟩
    rw [String.toList_ofList]
    rwa [List.isEmpty_iff.mp hend] at hcs

/-- What stands behind a direction does not go on with letters. -/
theorem isAlpha_head?_of_behind {pad semicolon tail : List Char} (hpad : IsBlanks pad)
    (hsemicolon : semicolon = [] ∨ semicolon = [';']) (htail : IsBlanks tail) :
    ∀ c ∈ (pad ++ (semicolon ++ tail)).head?, c.isAlpha = false := by
  have hblank {c : Char} (h : isBlank c = true) : c.isAlpha = false := by
    by_contra halpha
    rw [Bool.not_eq_false] at halpha
    simp [isBlank_of_isAlpha halpha] at h
  intro c hc
  cases pad with
  | cons d pad =>
    obtain rfl : d = c := by simpa using hc
    exact hblank (hpad d List.mem_cons_self)
  | nil =>
    rcases hsemicolon with rfl | rfl
    · exact hblank (htail c (List.mem_of_mem_head? hc))
    · obtain rfl : ';' = c := by simpa using hc
      rfl

theorem directionOf?_of_directs {cs : List Char} {direction : String} (h : Directs direction cs) :
    directionOf? cs = some direction := by
  obtain ⟨gap, pad, semicolon, tail, hgap, hletters, hpad, hsemicolon, htail, rfl⟩ := h
  have hother := isAlpha_head?_of_behind hpad hsemicolon htail
  have hend : trimStart (pad ++ (semicolon ++ tail)) = [] ∨
      trimStart (pad ++ (semicolon ++ tail)) = ';' :: tail := by
    rw [trimStart_append hpad]
    rcases hsemicolon with rfl | rfl
    · exact .inl (List.dropWhile_eq_nil_iff.mpr htail)
    · exact .inr (trimStart_cons tail rfl)
  generalize pad ++ (semicolon ++ tail) = body at hother hend ⊢
  -- without a direction, the blanks in front of the semicolon belong to the gap
  have hsplit : ∃ behind, trimStart (gap ++ (direction.toList ++ body)) =
      direction.toList ++ behind ∧
      (∀ c ∈ behind.head?, c.isAlpha = false) ∧ trimStart behind = trimStart body := by
    rw [trimStart_append hgap]
    cases hchars : direction.toList with
    | nil =>
      refine ⟨trimStart body, rfl, ?_, List.dropWhile_idempotent _ _⟩
      rcases hend with hnil | hsemi
      · simp [hnil]
      · simp [hsemi]
    | cons c cs =>
      have hc := isBlank_of_isAlpha (hletters c (by simp [hchars]))
      exact ⟨body, trimStart_cons _ hc, hother, rfl⟩
  obtain ⟨behind, hstart, hstop, hbehind⟩ := hsplit
  have htake : behind.takeWhile Char.isAlpha = [] := by
    cases behind with
    | nil => rfl
    | cons c cs => simp [hstop c rfl]
  have hdrop : behind.dropWhile Char.isAlpha = behind := by
    cases behind with
    | nil => rfl
    | cons c cs => simp [hstop c rfl]
  unfold directionOf?
  dsimp only
  rw [hstart, List.takeWhile_append_of_pos hletters, List.dropWhile_append_of_pos hletters,
    htake, hdrop, hbehind, List.append_nil, String.ofList_toList]
  rcases hend with hnil | hsemi
  · rw [hnil]
    rfl
  · have hnone : trimStart tail = [] := List.dropWhile_eq_nil_iff.mpr htail
    simp [hsemi, hnone]

theorem directionOf?_eq_some_iff {cs : List Char} {direction : String} :
    directionOf? cs = some direction ↔ Directs direction cs :=
  ⟨directs_of_directionOf?, directionOf?_of_directs⟩

theorem afterWord?_eq_some_iff {word : String} {cs rest : List Char} :
    afterWord? word cs = some rest ↔ cs = word.toList ++ rest ∧ wordEnds rest = true := by
  rw [← behind?_eq_some_iff]
  unfold afterWord?
  cases behind? word.toList cs with
  | none => simp
  | some found => by_cases hends : wordEnds found = true <;> grind

theorem declaration?_eq_some_iff {line : List Char} {keyword direction : String} :
    declaration? line = some (keyword, direction) ↔ Declares keyword direction line := by
  have hword (word : String) : ((afterWord? word line).bind fun rest =>
      (directionOf? rest).map fun found => (word, found)) = some (keyword, direction) ↔
      word = keyword ∧ ∃ rest, line = word.toList ++ rest ∧ wordEnds rest = true ∧
      Directs direction rest := by
    simp only [Option.bind_eq_some_iff, Option.map_eq_some_iff, afterWord?_eq_some_iff,
      Prod.mk.injEq, ← directionOf?_eq_some_iff]
    grind
  unfold declaration?
  constructor
  · intro h
    obtain ⟨word, hmem, hfound⟩ := List.exists_of_findSome?_eq_some h
    obtain ⟨rfl, hrest⟩ := (hword word).mp hfound
    exact ⟨by simpa [keywords] using hmem, hrest⟩
  · rintro ⟨rfl | rfl, hrest⟩
    · rw [keywords, List.findSome?_cons, (hword "flowchart").mpr ⟨rfl, hrest⟩]
    · have hother : afterWord? "flowchart" line = none := by
        obtain ⟨rest, rfl, -⟩ := hrest
        rfl
      rw [keywords, List.findSome?_cons, hother, Option.bind_none, List.findSome?_cons,
        (hword "graph").mpr ⟨rfl, hrest⟩]

theorem isPrefixOf_fenceMark_iff {raw : List Char} :
    fenceMark.isPrefixOf (trim raw) = true ↔ IsFence raw :=
  List.isPrefixOf_iff_prefix

theorem roleOf_eq_start_iff {raw : List Char} {keyword direction : String} :
    roleOf raw = .start keyword direction ↔ IsStart keyword direction raw := by
  rw [IsStart, ← isPrefixOf_fenceMark_iff, ← declaration?_eq_some_iff, roleOf]
  split_ifs with hfence
  · simp [hfence]
  · cases declaration? (trim raw) with
    | none => simp
    | some found => simp [hfence, Prod.ext_iff]

theorem roleOf_eq_body_iff {raw : List Char} : roleOf raw = .body ↔ ¬ IsMark raw := by
  have hfence : roleOf raw = .fence ↔ IsFence raw := by
    rw [← isPrefixOf_fenceMark_iff, roleOf]
    split_ifs with hfence
    · simp [hfence]
    · cases declaration? (trim raw) <;> simp [hfence]
  simp only [IsMark, ← hfence, ← roleOf_eq_start_iff]
  cases roleOf raw <;> simp

/-! ## The lines behind a start -/

/-- The line is no mark. -/
def isBody (l : Nat × List Char) : Bool := roleOf l.2 == .body

/-- An open block takes the lines up to the next mark, and the others are collected as without
it. -/
theorem collect_some (b : Block) (ls : List (Nat × List Char)) :
    collect (some b) ls = { b with lines := b.lines ++ ls.takeWhile isBody } ::
      collect none ls := by
  induction ls generalizing b with
  | nil => simp [collect]
  | cons l rest ih =>
    obtain ⟨n, raw⟩ := l
    cases hrole : roleOf raw with
    | fence => simp [collect, hrole, isBody]
    | start keyword direction => simp [collect, hrole, isBody]
    | body => simp [collect, hrole, isBody, ih, push]

/-- The blocks of numbered lines: one for each start among them, with the lines up to the next
mark. -/
theorem mem_collect_numberFrom {k : Nat} {ls : List (List Char)} {b : Block} :
    b ∈ collect none (numberFrom k ls) ↔ ∃ i raw, ls[i]? = some raw ∧ b.startLine = k + i ∧
      roleOf raw = .start b.keyword b.direction ∧
      b.lines = (numberFrom (k + i + 1) (ls.drop (i + 1))).takeWhile isBody := by
  induction ls generalizing k with
  | nil => simp [collect, numberFrom]
  | cons first rest ih =>
    have hshift (i : Nat) : k + 1 + i = k + (i + 1) := by omega
    have hrest := ih (k := k + 1)
    simp only [hshift] at hrest
    rw [← Nat.or_exists_add_one]
    simp only [List.getElem?_cons_zero, List.getElem?_cons_succ, Option.some.injEq, exists_eq_left',
      Nat.add_zero, List.drop_succ_cons, List.drop_zero, ← hrest]
    cases hrole : roleOf first with
    | fence => simp [numberFrom, collect, hrole]
    | body => simp [numberFrom, collect, hrole]
    | start keyword direction =>
      simp only [numberFrom, collect, hrole, collect_some, Option.toList_none, List.nil_append,
        List.mem_cons]
      refine or_congr_left ⟨?_, ?_⟩
      · rintro rfl
        exact ⟨rfl, rfl, rfl⟩
      · obtain ⟨startLine, word, towards, lines⟩ := b
        rintro ⟨hstart, hnames, hlines⟩
        obtain ⟨rfl, rfl⟩ := LineRole.start.inj hnames
        obtain rfl : startLine = k := hstart
        exact congrArg (Block.mk startLine keyword direction) hlines

/-- Starts keep their order. -/
theorem map_startLine_collect (ls : List (Nat × List Char)) :
    ((collect none ls).map Block.startLine).Sublist (ls.map Prod.fst) := by
  induction ls with
  | nil => simp [collect]
  | cons l rest ih =>
    obtain ⟨n, raw⟩ := l
    cases hrole : roleOf raw with
    | fence => simpa [collect, hrole] using ih.cons n
    | body => simpa [collect, hrole] using ih.cons n
    | start keyword direction => simpa [collect, hrole, collect_some] using ih

theorem map_fst_takeWhile_numberFrom (p : Nat × List Char → Bool) (k : Nat)
    (ls : List (List Char)) :
    ((numberFrom k ls).takeWhile p).map Prod.fst =
      List.range' k ((numberFrom k ls).takeWhile p).length := by
  induction ls generalizing k with
  | nil => rfl
  | cons first rest ih =>
    by_cases h : p (k, first) = true
    · simp [numberFrom, h, ih, List.range'_succ]
    · simp [numberFrom, h]

/-- A line stands in front of the first mark when neither it nor a line in front of it is one. -/
theorem mem_takeWhile_isBody {n k : Nat} {raw : List Char} {ls : List (List Char)} :
    (n, raw) ∈ (numberFrom k ls).takeWhile isBody ↔ ∃ i, n = k + i ∧ ls[i]? = some raw ∧
      ∀ j ≤ i, ∀ other, ls[j]? = some other → ¬ IsMark other := by
  induction ls generalizing k with
  | nil => simp [numberFrom]
  | cons first rest ih =>
    have hshift (i : Nat) : k + 1 + i = k + (i + 1) := by omega
    have hfirst : isBody (k, first) = true ↔ ¬ IsMark first := by
      rw [← roleOf_eq_body_iff]
      simp [isBody]
    have hrest := ih (k := k + 1)
    simp only [hshift] at hrest
    rw [← Nat.or_exists_add_one]
    by_cases hmark : IsMark first
    · have hnone : (numberFrom k (first :: rest)).takeWhile isBody = [] := by
        simp [numberFrom, hfirst, hmark]
      have hno (i : Nat) : ¬ ∀ j ≤ i, ∀ other, (first :: rest)[j]? = some other → ¬ IsMark other :=
        fun h => h 0 (Nat.zero_le i) first rfl hmark
      rw [hnone]
      simp only [hno, and_false, exists_false, or_false, List.not_mem_nil]
    · have hsome : (numberFrom k (first :: rest)).takeWhile isBody =
          (k, first) :: (numberFrom (k + 1) rest).takeWhile isBody := by
        simp [numberFrom, hfirst, hmark]
      have hall (i : Nat) :
          (∀ j ≤ i + 1, ∀ other, (first :: rest)[j]? = some other → ¬ IsMark other) ↔
          ∀ j ≤ i, ∀ other, rest[j]? = some other → ¬ IsMark other := by
        constructor
        · intro h j hj other hother
          exact h (j + 1) (by omega) other hother
        · intro h j hj other hother
          cases j with
          | zero => exact Option.some.inj hother ▸ hmark
          | succ j => exact h j (by omega) other hother
      have hzero : ∀ j ≤ 0, ∀ other, (first :: rest)[j]? = some other → ¬ IsMark other := by
        intro j hj other hother
        obtain rfl := Nat.le_zero.mp hj
        exact Option.some.inj hother ▸ hmark
      simp only [hsome, List.mem_cons, hrest, hall, List.getElem?_cons_succ]
      refine or_congr_left ⟨?_, ?_⟩
      · rintro ⟨⟩
        exact ⟨rfl, rfl, hzero⟩
      · rintro ⟨rfl, hraw, -⟩
        obtain rfl := Option.some.inj hraw
        rfl

/-! ## Blocks of a text -/

/-- Line `m` is the last mark in front of line `n`. -/
def LastMark (cs : List Char) (m n : Nat) : Prop :=
  m < n ∧ (∃ raw, lineAt? cs m = some raw ∧ IsMark raw) ∧
    ∀ k, m < k → k < n → ∀ raw, lineAt? cs k = some raw → ¬ IsMark raw

/-- The blocks are those of the text: one for each start, in order, with the lines that have this
start as their last mark. -/
structure Extends (cs : List Char) (blocks : List Block) : Prop where
  ordered : (blocks.map Block.startLine).Pairwise (· < ·)
  starts : ∀ n keyword direction,
    (∃ b ∈ blocks, b.startLine = n ∧ b.keyword = keyword ∧ b.direction = direction) ↔
      ∃ raw, lineAt? cs n = some raw ∧ IsStart keyword direction raw
  lines : ∀ b ∈ blocks, ∀ n raw, (n, raw) ∈ b.lines ↔
    lineAt? cs n = some raw ∧ ¬ IsMark raw ∧ LastMark cs b.startLine n
  consecutive : ∀ b ∈ blocks, b.lines.map Prod.fst = List.range' (b.startLine + 1) b.lines.length
  apart : (blocks.flatMap fun b => b.lines.map Prod.fst).Nodup

theorem mem_ofText_iff {cs : List Char} {b : Block} : b ∈ ofText cs ↔
    (∃ raw, lineAt? cs b.startLine = some raw ∧ IsStart b.keyword b.direction raw) ∧
      b.lines = (numberFrom (b.startLine + 1) ((Text.lines cs).drop b.startLine)).takeWhile
        isBody := by
  rw [ofText, numberedLines, mem_collect_numberFrom]
  constructor
  · rintro ⟨i, raw, hraw, hstart, hrole, hlines⟩
    rw [Nat.add_comm] at hstart
    rw [Nat.add_comm 1 i, ← hstart] at hlines
    exact ⟨⟨raw, by rw [hstart]; exact hraw, roleOf_eq_start_iff.mp hrole⟩, hlines⟩
  · rintro ⟨⟨raw, hraw, hstart⟩, hlines⟩
    cases hnumber : b.startLine with
    | zero => simp [hnumber, lineAt?] at hraw
    | succ i =>
      rw [hnumber] at hraw hlines
      refine ⟨i, raw, hraw, Nat.add_comm i 1, roleOf_eq_start_iff.mpr hstart, ?_⟩
      rwa [Nat.add_comm 1 i]

/-- Behind a mark, a line stands in front of the next one exactly when the mark is the last in front
of it. -/
theorem mem_takeWhile_iff_lastMark {cs : List Char} {m n : Nat} {raw : List Char}
    (hm : ∃ raw, lineAt? cs m = some raw ∧ IsMark raw) :
    (n, raw) ∈ (numberFrom (m + 1) ((Text.lines cs).drop m)).takeWhile isBody ↔
      lineAt? cs n = some raw ∧ ¬ IsMark raw ∧ LastMark cs m n := by
  have hline (i : Nat) : ((Text.lines cs).drop m)[i]? = lineAt? cs (m + 1 + i) := by
    rw [List.getElem?_drop, Nat.add_right_comm]
    rfl
  simp only [mem_takeWhile_isBody, hline]
  constructor
  · rintro ⟨i, rfl, hraw, hbody⟩
    refine ⟨hraw, hbody i (Nat.le_refl i) raw hraw, by omega, hm, fun k hk hkn other hother => ?_⟩
    obtain ⟨j, rfl⟩ := Nat.exists_eq_add_of_lt hk
    rw [Nat.add_right_comm] at hother
    exact hbody j (by omega) other hother
  · rintro ⟨hraw, hbody, hmn, -, hbetween⟩
    obtain ⟨i, rfl⟩ := Nat.exists_eq_add_of_lt hmn
    rw [Nat.add_right_comm] at hraw
    refine ⟨i, Nat.add_right_comm m i 1, hraw, fun j hj other hother => ?_⟩
    by_cases hlast : j = i
    · rw [hlast, hraw] at hother
      exact Option.some.inj hother ▸ hbody
    · exact hbetween (m + 1 + j) (by omega) (by omega) other hother

/-- A text falls into the blocks of its starts, whatever stands between and around them. -/
theorem extends_ofText (cs : List Char) : Extends cs (ofText cs) where
  ordered := by
    have hsub := map_startLine_collect (numberedLines cs)
    rw [numberedLines, map_fst_numberFrom] at hsub
    exact (List.pairwise_lt_range' (s := 1)).sublist hsub
  starts := by
    intro n keyword direction
    constructor
    · rintro ⟨b, hb, rfl, rfl, rfl⟩
      exact (mem_ofText_iff.mp hb).1
    · intro hstart
      let behind := (numberFrom (n + 1) ((Text.lines cs).drop n)).takeWhile isBody
      exact ⟨⟨n, keyword, direction, behind⟩, mem_ofText_iff.mpr ⟨hstart, rfl⟩, rfl, rfl, rfl⟩
  lines := by
    intro b hb n raw
    obtain ⟨⟨start, hline, hstart⟩, hlines⟩ := mem_ofText_iff.mp hb
    rw [hlines]
    exact mem_takeWhile_iff_lastMark ⟨start, hline, .inr ⟨_, _, hstart⟩⟩
  consecutive := by
    intro b hb
    rw [(mem_ofText_iff.mp hb).2]
    exact map_fst_takeWhile_numberFrom isBody _ _
  apart := nodup_numbers cs

end Block

end FlowMachine
