import FlowMachine.Proofs.Diagram.Assembly
import FlowMachine.Proofs.Findings

/-!
# What assembling reports

Statements report on labels, on repeated declarations and on style directives. The edges are looked
at when the draft is finished, and a diagram without nodes is reported instead.
-/
namespace FlowMachine

/-- The warning about an edge that leaves a final node. -/
def Edge.finalWarning (e : Edge) : Finding :=
  .warning s!"Transition from final state: {e.source} -> {e.target}" "final_state_transition" e.line
    (some s!"Remove the transition or make '{e.source}' non-final")

/-- The warning names the edge's source and line. -/
theorem Edge.eq_of_finalWarning_eq {e e' : Edge} (h : e.finalWarning = e'.finalWarning) :
    e.source = e'.source ∧ e.line = e'.line := by
  simp only [finalWarning, Finding.warning, Finding.mk.injEq, Option.some.injEq] at h
  obtain ⟨-, -, hline, hhint, -⟩ := h
  refine ⟨?_, hline⟩
  simpa [toString, String.append_right_inj, String.append_left_inj] using hhint

namespace Draft

/-- The kinds of what statements report. -/
def statementKinds : List (Severity × String) :=
  [(.warning, "state_label"), (.warning, "duplicate_state"), (.warning, "style_directive")]

theorem findings_mention (g : Draft) (id : String) (line : Option Int) :
    (g.mention id line).findings = g.findings := by
  unfold mention
  split <;> rfl

theorem within_labelFindings (limit : Limit) (id label : String) (line : Option Int) :
    Within statementKinds (labelFindings limit id label line) := by
  simp [labelFindings, statementKinds, Finding.warning]

variable {g : Draft}

theorem within_declare (limit : Limit) (ref : NodeRef) (line : Option Int)
    (h : Within statementKinds g.findings) :
    Within statementKinds (g.declare limit ref line).findings := by
  have hlabel := within_labelFindings limit ref.id (ref.label.getD ref.id) line
  unfold declare
  dsimp only
  split
  · exact within_append.mpr ⟨h, hlabel⟩
  · split_ifs
    · exact within_append.mpr ⟨h, by simp [statementKinds, Finding.warning]⟩
    · exact h
    · exact within_append.mpr ⟨h, hlabel⟩

theorem within_endpoint (limit : Limit) (ref : NodeRef) (line : Option Int)
    (h : Within statementKinds g.findings) :
    Within statementKinds (g.endpoint limit ref line).findings := by
  unfold endpoint
  split
  · exact within_declare limit ref line h
  · rwa [findings_mention]

theorem within_restyle (id : String) (shape : Option String) (classes : List String)
    (line : Option Int) (h : Within statementKinds g.findings) :
    Within statementKinds (g.restyle id shape classes line).findings := by
  rw [← findings_mention g id line] at h
  unfold restyle
  dsimp only [modify]
  split
  · exact h
  · split
    · exact within_append.mpr ⟨h, by simp [statementKinds, Finding.warning]⟩
    · exact h

/-- A statement reports nothing of another kind. -/
theorem within_apply (limit : Limit) (s : Statement) (h : Within statementKinds g.findings) :
    Within statementKinds (g.apply limit s).findings := by
  cases s with
  | node ref line => exact within_declare limit ref line h
  | edge source target label arrow line =>
    exact within_endpoint limit target line (within_endpoint limit source line h)
  | classDef name styles line => exact h
  | style id shape classes line =>
    rw [apply]
    exact within_restyle id shape classes line h
  | assign ids name line =>
    simp only [apply]
    induction ids generalizing g with
    | nil => exact h
    | cons id rest ih =>
      refine ih ?_
      show Within statementKinds (g.mention id line).findings
      rwa [findings_mention]

theorem within_ofStatements (limit : Limit) (ss : List Statement) :
    Within statementKinds (ofStatements limit ss).findings := by
  have run : ∀ (ss : List Statement) (g : Draft), Within statementKinds g.findings →
      Within statementKinds (ss.foldl (apply limit) g).findings := by
    intro ss
    induction ss with
    | nil => exact fun g h => h
    | cons s ss ih => exact fun g h => ih _ (within_apply limit s h)
  exact run ss {} (by simp)

/-- Of the edges, those that leave final nodes have a warning of their own. -/
theorem mem_edgeFindings_iff {f : Finding} (hf : f.category = "final_state_transition") :
    f ∈ g.edgeFindings ↔
      ∃ e ∈ g.edges, (g.node? e.source).any (·.isFinal) = true ∧ f = e.finalWarning := by
  simp only [edgeFindings, List.mem_flatMap, List.mem_append]
  refine exists_congr fun e => and_congr_right fun _ => ?_
  constructor
  · rintro (hself | hfinal)
    · split_ifs at hself
      · obtain rfl := List.mem_singleton.mp hself
        exact absurd hf (by simp [Finding.warning])
      · cases hself
    · split_ifs at hfinal with hnode
      · exact ⟨hnode, List.mem_singleton.mp hfinal⟩
      · cases hfinal
  · rintro ⟨hnode, rfl⟩
    rw [if_pos hnode]
    exact .inr (List.mem_singleton.mpr rfl)

theorem within_edgeFindings :
    Within [(.warning, "self_transition"), (.warning, "final_state_transition")]
      g.edgeFindings := by
  refine within_flatMap.mpr fun e _ => within_append.mpr ⟨?_, ?_⟩
  · split_ifs
    · exact within_singleton.mpr List.mem_cons_self
    · exact within_nil
  · split_ifs
    · exact within_singleton.mpr (List.mem_cons_of_mem _ List.mem_cons_self)
    · exact within_nil

end Draft

namespace Diagram

/-- The report on a diagram without nodes. -/
def IsEmptyReport (f : Finding) : Prop := f.severity = .warning ∧ f.category = "empty_diagram"

/-- A draft with nodes becomes a diagram, and its edges are reported on. Without nodes there are no
edges, and the diagram has a placeholder or is none at all. -/
theorem assemble_cases (options : ReadOptions) (ss : List Statement) (id : String)
    (path : Option String) (startLine : Option Int) :
    let g := Draft.ofStatements options.labelLimit ss
    (g.nodes ≠ [] ∧ assemble options ss id path startLine =
      (some (ofNodes id path g), g.findings ++ g.edgeFindings)) ∨
    (g.nodes = [] ∧ g.edges = [] ∧ ∃ f, IsEmptyReport f ∧ (assemble options ss id path startLine =
        (some (ofNodes id path { g.report [f] with nodes := [placeholder startLine] }),
          g.findings ++ [f]) ∨
      assemble options ss id path startLine = (none, g.findings ++ [f]))) := by
  intro g
  have hedges (hnil : g.nodes = []) : g.edges = [] := by
    refine List.eq_nil_iff_forall_not_mem.mpr fun e he => ?_
    simpa [Draft.ids, g, hnil] using (Draft.ids_of_edge he).1
  unfold assemble
  dsimp only
  split_ifs with hempty hplaceholder
  · have hnil : g.nodes = [] := by simpa using hempty
    exact .inr ⟨hnil, hedges hnil, _, ⟨rfl, rfl⟩, .inl rfl⟩
  · have hnil : g.nodes = [] := by simpa using hempty
    exact .inr ⟨hnil, hedges hnil, _, ⟨rfl, rfl⟩, .inr rfl⟩
  · exact .inl ⟨by simpa using hempty, rfl⟩

/-- The kinds of what assembling reports. -/
def assemblyKinds : List (Severity × String) :=
  Draft.statementKinds ++ [(.warning, "self_transition"), (.warning, "final_state_transition"),
    (.warning, "empty_diagram")]

theorem within_assemble (options : ReadOptions) (ss : List Statement) (id : String)
    (path : Option String) (startLine : Option Int) :
    Within assemblyKinds (assemble options ss id path startLine).2 := by
  have hdraft : Within assemblyKinds (Draft.ofStatements options.labelLimit ss).findings :=
    fun f hf => List.mem_append_left _ (Draft.within_ofStatements options.labelLimit ss f hf)
  have hempty {f : Finding} (hf : IsEmptyReport f) : Within assemblyKinds [f] := by
    simp [hf.1, hf.2, assemblyKinds]
  obtain ⟨-, h⟩ | ⟨-, -, f, hf, h | h⟩ := assemble_cases options ss id path startLine
  · rw [h, within_append]
    refine ⟨hdraft, fun f hf => List.mem_append_right _ ?_⟩
    have hkind := Draft.within_edgeFindings f hf
    simp only [List.mem_cons] at hkind ⊢
    tauto
  · rw [h, within_append]
    exact ⟨hdraft, hempty hf⟩
  · rw [h, within_append]
    exact ⟨hdraft, hempty hf⟩

end Diagram

end FlowMachine
