import FlowMachine.Proofs.Diagram.StateNames
import FlowMachine.Proofs.Findings
import FlowMachine.Proofs.Text.Lines
import Mathlib.Data.List.Nodup

/-!
# Lines of blocks

The lines of all blocks are lines of the source, in order and each at most once, so that the number
of a line tells its block. A statement carries the number of the line it was read from.
-/
namespace FlowMachine

open FlowMachine.Text

namespace Statement

/-- The number of the line that a statement was read from. -/
def line : Statement → Option Int
  | .node _ line => line
  | .edge _ _ _ _ line => line
  | .classDef _ _ line => line
  | .assign _ _ line => line
  | .style _ _ _ line => line

theorem line_of_readEdges {place : Option Int} {source : NodeRef} {cs : List Char}
    {ss : List Statement} (h : readEdges place source cs = .ok ss) : ∀ s ∈ ss, s.line = place := by
  obtain ⟨-, rfl⟩ | ⟨label, arrow, behind, target, rest, more, ha, hn, hm, rfl⟩ := readEdges_ok h
  · simp
  · exact List.forall_mem_cons.mpr ⟨rfl, line_of_readEdges hm⟩
termination_by cs.length
decreasing_by
  have := length_of_readArrow ha
  have := length_of_readNode hn
  omega

theorem line_of_readChain {place : Option Int} {cs : List Char} {ss : List Statement}
    (h : readChain place cs = .ok ss) : ∀ s ∈ ss, s.line = place := by
  obtain ⟨first, rest, -, ⟨inner, -, hd⟩ | ⟨-, rfl⟩ | he⟩ := readChain_ok h
  · obtain ⟨shape, classes, rfl⟩ := readDirective_ok hd
    simp [line]
  · simp [line]
  · exact line_of_readEdges he

/-- Every statement of a line carries the number that was given for the line. -/
theorem line_of_read {place : Option Int} {cs : List Char} {ss : List Statement}
    (h : read place cs = .ok ss) : ∀ s ∈ ss, s.line = place := by
  obtain ⟨-, rfl⟩ | ⟨rest, -, hc⟩ | ⟨rest, -, ha⟩ | hch := read_ok h
  · simp
  · obtain ⟨name, styles, rfl⟩ := readClassDef_ok hc
    simp [line]
  · obtain ⟨ids, className, -, rfl⟩ := readAssignment_ok ha
    simp [line]
  · exact line_of_readChain hch

end Statement

namespace Block

/-! ## Reading lines -/

theorem line_of_readLine {depth n : Nat} {raw : List Char} :
    ∀ s ∈ (readLine depth n raw).statements, s.line = some (n : Int) := by
  rcases readLine_statements depth n raw with hnil | hread
  · simp [hnil]
  · exact Statement.line_of_read hread

/-- The statements of lines come from these lines. -/
theorem line_of_readLines {depth : Nat} {ls : List (Nat × List Char)} {s : Statement}
    (h : s ∈ (readLines depth ls).1) : ∃ n ∈ ls.map Prod.fst, s.line = some (n : Int) := by
  induction ls generalizing depth with
  | nil => simp [readLines] at h
  | cons l rest ih =>
    obtain ⟨n, raw⟩ := l
    rcases List.mem_append.mp h with here | more
    · exact ⟨n, by simp, line_of_readLine s here⟩
    · obtain ⟨k, hk, hline⟩ := ih more
      exact ⟨k, List.mem_cons_of_mem _ hk, hline⟩

/-- What reading a line can find. -/
theorem within_readLine (depth n : Nat) (raw : List Char) :
    Within [(.warning, "subgraph"), (.warning, "syntax"), (.error, "syntax")]
      (readLine depth n raw).findings := by
  unfold readLine
  dsimp only
  split_ifs
  · simp
  · simp [Finding.warning]
  · simp
  · simp [Finding.warning]
  · split
    · simp
    · rename_i e _
      cases e.severity <;> simp

theorem within_readLines (depth : Nat) (ls : List (Nat × List Char)) :
    Within [(.warning, "subgraph"), (.warning, "syntax"), (.error, "syntax")]
      (readLines depth ls).2 := by
  induction ls generalizing depth with
  | nil => simp [readLines]
  | cons l rest ih => exact within_append.mpr ⟨within_readLine depth l.1 l.2, ih _⟩

/-! ## Blocks of a source -/

/-- Collecting appends the lines of the source to those of the open block and leaves some out. -/
theorem lines_collect (current : Option Block) (ls : List (Nat × List Char)) :
    ((collect current ls).flatMap Block.lines).Sublist
      (current.toList.flatMap Block.lines ++ ls) := by
  induction ls generalizing current with
  | nil => simp [collect]
  | cons l rest ih =>
    obtain ⟨n, raw⟩ := l
    rw [collect]
    split
    · rw [List.flatMap_append]
      exact ((ih none).trans (List.sublist_cons_self _ _)).append_left _
    · rw [List.flatMap_append]
      exact ((ih _).trans (List.sublist_cons_self _ _)).append_left _
    · cases current with
      | none => exact (ih none).trans (List.sublist_cons_self _ _)
      | some b => simpa [push] using ih (some (b.push n raw))

theorem lines_ofText (cs : List Char) :
    ((ofText cs).flatMap Block.lines).Sublist (numberedLines cs) :=
  lines_collect none (numberedLines cs)

/-- The line of a block is a line of the source with the same number. -/
theorem mem_numberedLines {cs : List Char} {b : Block} (hb : b ∈ ofText cs) {l : Nat × List Char}
    (hl : l ∈ b.lines) : l ∈ numberedLines cs :=
  (lines_ofText cs).subset (List.mem_flatMap.mpr ⟨b, hb, hl⟩)

/-- Every number of a line stands once in all blocks together. -/
theorem nodup_numbers (cs : List Char) :
    ((ofText cs).flatMap fun b => b.lines.map Prod.fst).Nodup := by
  have hmap := (lines_ofText cs).map Prod.fst
  rw [List.map_flatMap] at hmap
  exact (nodup_numberedLines cs).sublist hmap

theorem nodup_lines {cs : List Char} {b : Block} (hb : b ∈ ofText cs) :
    (b.lines.map Prod.fst).Nodup :=
  (List.nodup_flatMap.mp (nodup_numbers cs)).1 b hb

/-- The number of a line tells its block. -/
theorem eq_of_mem_lines {cs : List Char} {b b' : Block} (hb : b ∈ ofText cs) (hb' : b' ∈ ofText cs)
    {n : Nat} (hn : n ∈ b.lines.map Prod.fst) (hn' : n ∈ b'.lines.map Prod.fst) : b = b' := by
  by_contra hne
  have hpairs := (List.nodup_flatMap.mp (nodup_numbers cs)).2
  have hsymm : Std.Symm fun b b' : Block =>
      (b.lines.map Prod.fst).Disjoint (b'.lines.map Prod.fst) := ⟨fun _ _ h => List.disjoint_symm h⟩
  exact hpairs.forall hb hb' hne hn hn'

/-- Fences and declarations of flowcharts are no lines of blocks. -/
theorem roleOf_of_mem_collect {current : Option Block} {ls : List (Nat × List Char)}
    (hcurrent : ∀ b ∈ current, ∀ l ∈ b.lines, roleOf l.2 = .body) :
    ∀ b ∈ collect current ls, ∀ l ∈ b.lines, roleOf l.2 = .body := by
  induction ls generalizing current with
  | nil => simpa [collect] using hcurrent
  | cons l rest ih =>
    obtain ⟨n, raw⟩ := l
    have hopen : ∀ b ∈ current.toList, ∀ l ∈ b.lines, roleOf l.2 = .body := by simpa using hcurrent
    rw [collect]
    split
    · exact List.forall_mem_append.mpr ⟨hopen, ih (by simp)⟩
    · exact List.forall_mem_append.mpr ⟨hopen, ih (by simp)⟩
    · rename_i hrole
      refine ih fun b hb => ?_
      obtain ⟨b, hmem, rfl⟩ := Option.map_eq_some_iff.mp hb
      refine List.forall_mem_append.mpr ⟨hcurrent b hmem, ?_⟩
      simpa using hrole

theorem roleOf_of_mem_lines {cs : List Char} {b : Block} (hb : b ∈ ofText cs) {l : Nat × List Char}
    (hl : l ∈ b.lines) : roleOf l.2 = .body :=
  roleOf_of_mem_collect (by simp) b hb l hl

end Block

end FlowMachine
