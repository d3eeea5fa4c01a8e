import FlowMachine.Settings
import FlowMachine.Proofs.Diagram.Blocks
import FlowMachine.Proofs.Diagram.Reports

/-!
# Lines without a statement

A line of a block gives all of its statements or none. One that gives none is a comment, a malformed
or unsupported statement, or the border of a subgraph. It leaves no trace but the report on it: with
a comment in its place the source has the same diagrams and the same other findings, whatever the
lines around it.
-/
namespace FlowMachine

open FlowMachine.Text

namespace Block

/-- The number of a line of the block from which no statement was read. -/
def isIdle (b : Block) (n : Nat) : Bool :=
  b.lines.any (·.1 == n) && !b.read.1.any (·.line == some (n : Int))

/-- Rewrites the lines of a block by their numbers. -/
def mapLines (f : Nat → List Char → List Char) (b : Block) : Block :=
  { b with lines := b.lines.map fun l => (l.1, f l.1 l.2) }

end Block

/-- A line that only holds the mark of a comment. -/
def commentLine : List Char := "%%".toList

/-- Puts a comment in place of the lines whose numbers are picked. -/
def hush (pick : Nat → Bool) (n : Nat) (line : List Char) : List Char :=
  if pick n then commentLine else line

namespace Source

/-- The number of a line, inside some block, from which no statement was read. -/
def isIdle (text : String) (n : Nat) : Bool := (Block.ofText text.toList).any (·.isIdle n)

/-- The text of a source with a comment in place of every line without a statement. -/
def silence (text : String) : String :=
  String.ofList (editLines (hush (isIdle text)) text.toList)

/-- A finding that is not about a single line: neither malformed text nor a subgraph. -/
def isLasting (f : Finding) : Bool := f.category != "syntax" && f.category != "subgraph"

/-- A source without its findings about single lines. -/
def quiet (s : Source) : Source := { s with findings := s.findings.filter isLasting }

end Source

namespace Block

/-! ## Reading with comments in place -/

@[simp] theorem readLine_commentLine (depth n : Nat) :
    readLine depth n commentLine = { depth } := by
  have hcomment : isComment (trim commentLine) = true := by decide
  simp [readLine, hcomment]

/-- A line that gives statements does so outside of all subgraphs too, and nothing is found
there. -/
theorem readLine_zero {depth n : Nat} {raw : List Char}
    (h : (readLine depth n raw).statements ≠ []) :
    readLine 0 n raw = { depth := 0, statements := (readLine depth n raw).statements } := by
  have hshut : ¬ (trim raw == "end".toList && (0 : Nat) != 0) = true := by simp
  unfold readLine at h
  dsimp only at h
  split_ifs at h with hblank hsubgraph hend hignored
  · exact absurd rfl h
  · exact absurd rfl h
  · exact absurd rfl h
  · exact absurd rfl h
  · cases hread : Statement.read (some (n : Int)) (trim raw) with
    | ok ss => simp only [readLine, if_neg hblank, if_neg hsubgraph, if_neg hend, if_neg hignored,
        if_neg hshut, hread]
    | error e => simp [hread] at h

/-- The statements of a line are found by its number among those of all lines. -/
theorem any_line_readLine (depth n k : Nat) (raw : List Char) :
    (readLine depth n raw).statements.any (·.line == some (k : Int)) =
      (n == k && !(readLine depth n raw).statements.isEmpty) := by
  cases hss : (readLine depth n raw).statements with
  | nil => simp
  | cons s ss =>
    have hline : ∀ t ∈ s :: ss, t.line = some (n : Int) := hss ▸ line_of_readLine
    by_cases hk : n = k
    · simp [hline s (by simp), hk]
    · have hnone : ∀ t ∈ s :: ss, ¬ (t.line == some (k : Int)) = true := by
        intro t ht
        simpa [hline t ht, Int.natCast_inj] using hk
      simp [List.any_eq_false.mpr hnone, hk]

theorem any_line_readLines_of_not_mem {depth n : Nat} {ls : List (Nat × List Char)}
    (h : n ∉ ls.map Prod.fst) : (readLines depth ls).1.any (·.line == some (n : Int)) = false := by
  refine List.any_eq_false.mpr fun s hs hline => ?_
  obtain ⟨k, hk, hplace⟩ := line_of_readLines hs
  have heq : (k : Int) = n := by simpa [hplace] using hline
  exact h (Int.ofNat.inj heq ▸ hk)

/-- With comments in place of the lines without a statement, the same statements are read and
nothing is found. The subgraphs that were open do not matter, as no line that opens or closes one is
left. -/
theorem readLines_hush {idle : Nat → Bool} {depth : Nat} {ls : List (Nat × List Char)}
    (hnodup : (ls.map Prod.fst).Nodup)
    (hidle : ∀ l ∈ ls, idle l.1 = !(readLines depth ls).1.any (·.line == some (l.1 : Int))) :
    readLines 0 (ls.map fun l => (l.1, hush idle l.1 l.2)) = ((readLines depth ls).1, []) := by
  induction ls generalizing depth with
  | nil => rfl
  | cons l rest ih =>
    obtain ⟨n, raw⟩ := l
    obtain ⟨hn, hrest⟩ := List.nodup_cons.mp hnodup
    simp only [readLines, List.any_append, any_line_readLine] at hidle
    have hhere : idle n = (readLine depth n raw).statements.isEmpty := by
      simpa [any_line_readLines_of_not_mem hn] using hidle (n, raw) (by simp)
    have hmore := @ih (readLine depth n raw).depth hrest fun l hl => by
      have hne : (n == l.1) = false := by
        refine beq_eq_false_iff_ne.mpr fun heq => hn ?_
        exact List.mem_map.mpr ⟨l, hl, heq.symm⟩
      simpa [hne] using hidle l (List.mem_cons_of_mem _ hl)
    have hline : readLine 0 n (hush idle n raw) =
        { depth := 0, statements := (readLine depth n raw).statements } := by
      rw [hush, hhere]
      split_ifs with hnone
      · rw [readLine_commentLine, List.isEmpty_iff.mp hnone]
      · exact readLine_zero (by simpa using hnone)
    simp only [List.map_cons, readLines, hline, hmore, List.append_nil]

theorem read_hush {cs : List Char} {b : Block} (hb : b ∈ ofText cs) :
    (b.mapLines (hush b.isIdle)).read = (b.read.1, []) := by
  refine readLines_hush (nodup_lines hb) fun l hl => ?_
  have hmem : b.lines.any (·.1 == l.1) = true := List.any_eq_true.mpr ⟨l, hl, by simp⟩
  simp [isIdle, hmem, read]

/-! ## Blocks of a text with comments in place -/

/-- Rewriting lines that are no borders of blocks, and do not become one, rewrites the blocks. -/
theorem collect_map {f : Nat → List Char → List Char} {ls : List (Nat × List Char)}
    (hf : ∀ l ∈ ls, roleOf (f l.1 l.2) = roleOf l.2) (current : Option Block) :
    collect (current.map (mapLines f)) (ls.map fun l => (l.1, f l.1 l.2)) =
      (collect current ls).map (mapLines f) := by
  induction ls generalizing current with
  | nil => cases current <;> rfl
  | cons l rest ih =>
    obtain ⟨n, raw⟩ := l
    obtain ⟨hhere, hrest⟩ := List.forall_mem_cons.mp hf
    have hopen : (current.map (mapLines f)).toList = current.toList.map (mapLines f) := by
      cases current <;> rfl
    simp only [List.map_cons, collect, hhere]
    split
    · rw [hopen, List.map_append, ← ih hrest none]
      rfl
    · rename_i keyword direction _
      rw [hopen, List.map_append, ← ih hrest (some ⟨n, keyword, direction, []⟩)]
      rfl
    · rw [← ih hrest]
      cases current with
      | none => rfl
      | some b => simp [push, mapLines]

theorem isIdle_eq_of_mem {text : String} {b : Block} (hb : b ∈ ofText text.toList) {n : Nat}
    (hn : n ∈ b.lines.map Prod.fst) : Source.isIdle text n = b.isIdle n := by
  rw [Bool.eq_iff_iff, Source.isIdle, List.any_eq_true]
  refine ⟨?_, fun h => ⟨b, hb, h⟩⟩
  rintro ⟨b', hb', hidle⟩
  have hn' : n ∈ b'.lines.map Prod.fst := by
    simp only [isIdle, Bool.and_eq_true, List.any_eq_true, beq_iff_eq] at hidle
    obtain ⟨⟨l, hl, rfl⟩, -⟩ := hidle
    exact List.mem_map_of_mem hl
  rwa [eq_of_mem_lines hb hb' hn hn']

/-- A line without a statement lies inside a block, so it is no border of one. -/
theorem roleOf_hush {text : String} {l : Nat × List Char} (hl : l ∈ numberedLines text.toList) :
    roleOf (hush (Source.isIdle text) l.1 l.2) = roleOf l.2 := by
  unfold hush
  split_ifs with hidle
  · obtain ⟨b, hb, hidle⟩ := List.any_eq_true.mp hidle
    simp only [isIdle, Bool.and_eq_true, List.any_eq_true, beq_iff_eq] at hidle
    obtain ⟨⟨l', hl', hnumber⟩, -⟩ := hidle
    have heq : l' = l :=
      List.inj_on_of_nodup_map (nodup_numberedLines text.toList)
        (mem_numberedLines hb hl') hl hnumber
    have hbody : roleOf l.2 = .body := heq ▸ roleOf_of_mem_lines hb hl'
    rw [hbody]
    decide
  · rfl

end Block

namespace Source

/-- Comments in place of lines leave the breaks of the text alone. -/
theorem tame_hush (pick : Nat → Bool) : Tame (hush pick) := by
  intro n line hline
  unfold hush
  split_ifs
  · have hchars : commentLine.all (isBreak · == false) = true := by decide
    exact ⟨fun c hc => eq_of_beq (List.all_eq_true.mp hchars c hc), .inr (by decide)⟩
  · exact ⟨hline, .inl rfl⟩

theorem numberedLines_silence (text : String) :
    numberedLines (silence text).toList =
      (numberedLines text.toList).map fun l => (l.1, hush (isIdle text) l.1 l.2) := by
  rw [silence, String.toList_ofList, numberedLines_editLines (tame_hush _)]

/-- The silenced text has the same blocks, each with comments in place of its own idle lines. -/
theorem ofText_silence (text : String) :
    Block.ofText (silence text).toList =
      (Block.ofText text.toList).map fun b => b.mapLines (hush b.isIdle) := by
  rw [Block.ofText, numberedLines_silence]
  refine (Block.collect_map (fun l hl => Block.roleOf_hush hl) none).trans ?_
  refine List.map_congr_left fun b hb => ?_
  simp only [Block.mapLines, Block.mk.injEq, true_and]
  refine List.map_congr_left fun l hl => ?_
  rw [hush, hush, Block.isIdle_eq_of_mem hb (List.mem_map_of_mem hl)]

/-! ## Reading the silenced text -/

variable (options : ReadOptions) (path : Option String)

theorem readBlock_hush (id : String) {cs : List Char} {b : Block} (hb : b ∈ Block.ofText cs) :
    readBlock options id path (b.mapLines (hush b.isIdle)) =
      ((readBlock options id path b).1, (readBlock options id path b).2.filter isLasting) := by
  have hlines : b.read.2.filter isLasting = [] :=
    (Block.within_readLines 0 b.lines).filter_eq_nil fun f hf => by
      simp only [List.mem_cons, Prod.mk.injEq, List.not_mem_nil, or_false] at hf
      rcases hf with ⟨-, h⟩ | ⟨-, h⟩ | ⟨-, h⟩ <;> simp [isLasting, h]
  have hassembly : (Diagram.assemble options b.read.1 id path (some b.startLine)).2.filter
      isLasting =
      (Diagram.assemble options b.read.1 id path (some b.startLine)).2 := by
    refine List.filter_eq_self.mpr fun f hf => ?_
    have hkind := Diagram.within_assemble options b.read.1 id path (some b.startLine) f hf
    have hlasting : ∀ kind ∈ Diagram.assemblyKinds, kind.2 ≠ "syntax" ∧
      kind.2 ≠ "subgraph" := by decide
    simpa [isLasting] using hlasting _ hkind
  simp only [readBlock, Block.read_hush hb, List.filter_append, hlines, hassembly]
  rfl

theorem readBlocks_hush (base : String) {cs : List Char} (index : Nat) {blocks : List Block}
    (h : ∀ b ∈ blocks, b ∈ Block.ofText cs) :
    readBlocks options base path index (blocks.map fun b => b.mapLines (hush b.isIdle)) =
      ((readBlocks options base path index blocks).1,
        (readBlocks options base path index blocks).2.filter isLasting) := by
  induction blocks generalizing index with
  | nil => rfl
  | cons b rest ih =>
    obtain ⟨hb, hrest⟩ := List.forall_mem_cons.mp h
    simp only [List.map_cons, readBlocks, readBlock_hush options path _ hb, ih _ hrest,
      List.filter_append]

theorem read_silence (text : String) (name : Option String) :
    read options (silence text) name path = (read options text name path).quiet := by
  have hcount : (lines (silence text).toList).length = (lines text.toList).length := by
    rw [← length_numberedLines, numberedLines_silence, List.length_map, length_numberedLines]
  have hblocks := readBlocks_hush options path (baseName name) 0
    fun b (hb : b ∈ Block.ofText text.toList) => hb
  unfold read
  dsimp only
  rw [ofText_silence, hcount]
  cases hof : Block.ofText text.toList with
  | nil => rfl
  | cons b rest =>
    rw [hof] at hblocks
    simp only [List.map_cons] at hblocks ⊢
    rw [hblocks]
    rfl

theorem measuresLabels_silence (text : String) :
    measuresLabels (silence text) = measuresLabels text := by
  unfold measuresLabels
  rw [ofText_silence, List.any_map, Bool.eq_iff_iff, List.any_eq_true, List.any_eq_true]
  refine exists_congr fun b => and_congr_right fun hb => ?_
  simp only [Function.comp_apply, Block.read_hush hb]

/-- Under any settings, a source reads the same with comments in place of all lines of its blocks
that gave no statement: its diagrams do not change, a fault stays that fault, and of the findings
exactly those about malformed or unsupported lines and about subgraphs are gone. -/
theorem readSource_silence (s : ReaderSettings) (text : String) (name path : Option String) :
    s.readSource (silence text) name path = (s.readSource text name path).map quiet := by
  unfold ReaderSettings.readSource
  rw [measuresLabels_silence]
  split
  · rw [read_silence]
    rfl
  · split_ifs
    · rfl
    · rw [read_silence]
      rfl

/-- A chain that breaks off and a subgraph are silenced; the lines around them and the fence
stay. -/
example :
    silence "flowchart TD\r\n\nA --> B --> 1\nsubgraph x\nA --> C\nend\nend\n```\nA -->" =
      "flowchart TD\r\n%%\n%%\n%%\nA --> C\n%%\nend\n```\nA -->" := by
  decide +kernel

end Source

end FlowMachine
