import FlowMachine.Proofs.Diagram.Blocks
import FlowMachine.Proofs.Diagram.Reports
import FlowMachine.Proofs.Diagram.WellFormed

/-!
# Edges out of final nodes

A source has a warning for every edge that leaves a final node, and for no other edge. The warnings
of all blocks stand in one list, but a warning has the line of its edge, and the line tells the
block.
-/
namespace FlowMachine

open FlowMachine.Text

theorem Statement.line_of_drawn {s : Statement} {e : Edge} (h : e ∈ s.drawn) : e.line = s.line := by
  cases s <;> simp_all [drawn, line, Edge.ofLabel]

namespace Draft

/-- Ids are distinct, so the node that is looked up is the only one with its id. -/
theorem any_isFinal_iff {g : Draft} (hnodup : g.ids.Nodup) {id : String} :
    (g.node? id).any (·.isFinal) = true ↔ id ∈ (g.nodes.filter (·.isFinal)).map (·.id) := by
  rw [Option.any_eq_true, List.mem_map]
  constructor
  · rintro ⟨n, hn, hfinal⟩
    exact ⟨n, List.mem_filter.mpr ⟨List.mem_of_find?_eq_some hn, hfinal⟩, id_of_node? hn⟩
  · rintro ⟨n, hn, rfl⟩
    obtain ⟨hmem, hfinal⟩ := List.mem_filter.mp hn
    exact ⟨n, node?_of_mem hnodup hmem, hfinal⟩

end Draft

namespace Block

/-- The draft that the statements of a block describe. -/
def draft (limit : Limit) (b : Block) : Draft := .ofStatements limit b.read.1

theorem line_of_mem_edges {limit : Limit} {b : Block} {e : Edge} (h : e ∈ (b.draft limit).edges) :
    ∃ n ∈ b.lines.map Prod.fst, e.line = some (n : Int) := by
  rw [draft, Draft.edges_ofStatements] at h
  obtain ⟨s, hs, he⟩ := List.mem_flatMap.mp h
  rw [Statement.line_of_drawn he]
  exact line_of_readLines hs

end Block

namespace Source

variable {options : ReadOptions} {path : Option String}

/-- The diagram of a block has the edges of its draft, and the nodes that its draft has as final. -/
theorem edges_of_readBlock {id : String} {b : Block} {d : Diagram}
    (h : (readBlock options id path b).1 = some d) :
    d.edges = (b.draft options.labelLimit).edges ∧ ∀ e ∈ d.edges,
      (((b.draft options.labelLimit).node? e.source).any (·.isFinal) = true ↔
        e.source ∈ d.finals) := by
  have hnodup := Draft.nodup_ids options.labelLimit b.read.1
  simp only [readBlock] at h
  obtain ⟨-, hbuilt⟩ | ⟨-, hedges, f, -, hbuilt | hbuilt⟩ :=
    Diagram.assemble_cases options b.read.1 id path (some b.startLine)
  · rw [hbuilt] at h
    obtain rfl := Option.some.inj h
    refine ⟨rfl, fun e _ => ?_⟩
    rw [Diagram.finals_ofNodes]
    exact Draft.any_isFinal_iff hnodup
  · rw [hbuilt] at h
    obtain rfl := Option.some.inj h
    refine ⟨rfl, fun e he => ?_⟩
    have hnone : e ∈ (Draft.ofStatements options.labelLimit b.read.1).edges := he
    rw [hedges] at hnone
    cases hnone
  · rw [hbuilt] at h
    cases h

variable {f : Finding} (hf : f.category = "final_state_transition")
include hf

theorem mem_readBlock_iff (id : String) (b : Block) :
    f ∈ (readBlock options id path b).2 ↔ f ∈ (b.draft options.labelLimit).edgeFindings := by
  have hother {kinds : List (Severity × String)} {fs : List Finding} (h : Within kinds fs)
      (hkinds : ∀ kind ∈ kinds, kind.2 ≠ "final_state_transition") : f ∉ fs :=
    fun hmem => hkinds _ (h f hmem) hf
  have hlines : f ∉ b.read.2 := hother (Block.within_readLines 0 b.lines) (by decide)
  have hdraft : f ∉ (b.draft options.labelLimit).findings :=
    hother (Draft.within_ofStatements _ _) (by decide)
  have hbuilt : f ∈ (Diagram.assemble options b.read.1 id path (some b.startLine)).2 ↔
      f ∈ (b.draft options.labelLimit).edgeFindings := by
    have hempty {k : Finding} (hk : Diagram.IsEmptyReport k)
        (hedges : (b.draft options.labelLimit).edges = []) :
        f ∈ (b.draft options.labelLimit).findings ++ [k] ↔
          f ∈ (b.draft options.labelLimit).edgeFindings := by
      have hne : f ≠ k := fun heq => absurd (hf.symm.trans (heq ▸ hk.2)) (by decide)
      simp [hdraft, hne, Draft.edgeFindings, hedges]
    obtain ⟨-, h⟩ | ⟨-, hedges, k, hk, h | h⟩ :=
      Diagram.assemble_cases options b.read.1 id path (some b.startLine)
    · rw [h, List.mem_append]
      exact or_iff_right hdraft
    · rw [h]
      exact hempty hk hedges
    · rw [h]
      exact hempty hk hedges
  rw [readBlock, List.mem_append, hbuilt]
  exact or_iff_right hlines

theorem mem_readBlocks_iff (base : String) (index : Nat) (blocks : List Block) :
    f ∈ (readBlocks options base path index blocks).2 ↔
      ∃ b ∈ blocks, f ∈ (b.draft options.labelLimit).edgeFindings := by
  induction blocks generalizing index with
  | nil => simp [readBlocks]
  | cons b rest ih =>
    rw [readBlocks, List.mem_append, mem_readBlock_iff hf, ih, List.exists_mem_cons_iff]

theorem mem_findings_read_iff (text : String) (name : Option String) :
    f ∈ (read options text name path).findings ↔
      ∃ b ∈ Block.ofText text.toList, f ∈ (b.draft options.labelLimit).edgeFindings := by
  unfold read
  dsimp only
  split
  · rename_i hnone
    have hne : f ≠ noDiagram := fun heq => absurd (heq ▸ hf) (by decide)
    simp [hnone, hne]
  · exact mem_readBlocks_iff hf _ _ _

omit hf

/-- An edge of a diagram has a warning in the source exactly when it leaves a final node. -/
theorem finalWarning_mem_read_iff {text : String} {name : Option String} {d : Diagram}
    (hd : d ∈ (read options text name path).diagrams) {e : Edge} (he : e ∈ d.edges) :
    e.finalWarning ∈ (read options text name path).findings ↔ e.source ∈ d.finals := by
  obtain ⟨b, hb, id, hread⟩ := exists_mem_ofText_of_mem_read hd
  obtain ⟨hedges, hfinals⟩ := edges_of_readBlock hread
  rw [mem_findings_read_iff rfl, ← hfinals e he]
  rw [hedges] at he
  constructor
  · rintro ⟨b', hb', hwarned⟩
    obtain ⟨e', he', hfinal, hsame⟩ := (Draft.mem_edgeFindings_iff rfl).mp hwarned
    obtain ⟨hsource, hline⟩ := Edge.eq_of_finalWarning_eq hsame
    obtain ⟨n, hn, hplace⟩ := Block.line_of_mem_edges he
    obtain ⟨n', hn', hplace'⟩ := Block.line_of_mem_edges he'
    rw [hplace, hplace', Option.some.injEq, Int.natCast_inj] at hline
    obtain rfl := Block.eq_of_mem_lines hb hb' hn (hline ▸ hn')
    rwa [hsource]
  · intro hfinal
    exact ⟨b, hb, (Draft.mem_edgeFindings_iff rfl).mpr ⟨e, he, hfinal, rfl⟩⟩

end Source

end FlowMachine
