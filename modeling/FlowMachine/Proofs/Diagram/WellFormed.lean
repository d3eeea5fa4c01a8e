import FlowMachine.Diagram.Source
import FlowMachine.Proofs.Diagram.Assembly

/-!
# Well-formed diagrams

Every diagram that a source holds is a closed graph with distinct state names, one initial node and
the final nodes it lists. The draft supplies the graph; this module adds the choice of the initial
node and follows the blocks of a source.
-/
namespace FlowMachine

/-- The id is one of the initial names, whatever its case. -/
def Node.HasOpeningName (n : Node) : Prop :=
  Text.lower n.id ∈ ["start", "idle", "initial", "begin"]

/-- The node between `before` and `after` is where a diagram starts: the first with an initial name,
or the first of all when no node has one. -/
def StartsBetween (before : List Node) (n : Node) (after : List Node) : Prop :=
  (n.HasOpeningName ∧ ∀ k ∈ before, ¬ k.HasOpeningName) ∨
    (before = [] ∧ ∀ k ∈ n :: after, ¬ k.HasOpeningName)

namespace Diagram

structure WellFormed (d : Diagram) : Prop where
  nodes_ne_nil : d.nodes ≠ []
  ids_nodup : d.nodeIds.Nodup
  ids_named : ∀ id ∈ d.nodeIds, IsStateName id
  edges_closed : ∀ e ∈ d.edges, e.source ∈ d.nodeIds ∧ e.target ∈ d.nodeIds
  one_initial : ∃ before n after, d.nodes = before ++ n :: after ∧ StartsBetween before n after ∧
    n.isInitial = true ∧ (∀ k ∈ before ++ after, k.isInitial = false) ∧ d.initial = n.id
  finals_eq : d.finals = (d.nodes.filter (·.isFinal)).map (·.id)
  classes_nodup : ∀ n ∈ d.nodes, n.classes.Nodup

theorem WellFormed.initial_mem {d : Diagram} (h : d.WellFormed) : d.initial ∈ d.nodeIds := by
  obtain ⟨before, n, after, hnodes, -, -, -, hinitial⟩ := h.one_initial
  rw [hinitial, nodeIds, hnodes]
  simp

/-- The search for an initial name falls back to the front of the list. -/
theorem initialNode?_spec {nodes : List Node} (h : nodes ≠ []) :
    ∃ before n after, nodes = before ++ n :: after ∧ initialNode? nodes = some n ∧
      StartsBetween before n after := by
  cases hf : nodes.find? fun n => openingNames.contains (Text.lower n.id) with
  | some n =>
    obtain ⟨hn, before, after, heq, hbefore⟩ := List.find?_eq_some_iff_append.mp hf
    refine ⟨before, n, after, heq, by rw [initialNode?, hf]; rfl, .inl ⟨?_, ?_⟩⟩
    · simpa [Node.HasOpeningName, openingNames] using hn
    · intro k hk
      simpa [Node.HasOpeningName, openingNames] using hbefore k hk
  | none =>
    cases nodes with
    | nil => exact absurd rfl h
    | cons n after =>
      refine ⟨[], n, after, rfl, by rw [initialNode?, hf]; rfl, .inr ⟨rfl, ?_⟩⟩
      intro k hk
      simpa [Node.HasOpeningName, openingNames] using List.find?_eq_none.mp hf k hk

/-- The node as it stands in a diagram whose initial node has the given id. -/
def marked (start : String) (n : Node) : Node := { n with isInitial := n.id == start }

theorem nodes_ofNodes (id : String) (path : Option String) {g : Draft} {n : Node}
    (h : initialNode? g.nodes = some n) :
    (ofNodes id path g).nodes = g.nodes.map (marked n.id) := by
  simp only [ofNodes, h]
  rfl

theorem initial_ofNodes (id : String) (path : Option String) {g : Draft} {n : Node}
    (h : initialNode? g.nodes = some n) : (ofNodes id path g).initial = n.id := by
  simp [ofNodes, h]

theorem nodeIds_ofNodes (id : String) (path : Option String) (g : Draft) :
    (ofNodes id path g).nodeIds = g.ids := by
  simp [ofNodes, nodeIds, Draft.ids, Function.comp_def]

theorem finals_ofNodes (id : String) (path : Option String) (g : Draft) :
    (ofNodes id path g).finals = (g.nodes.filter (·.isFinal)).map (·.id) := by
  rw [ofNodes, List.filter_map, List.map_map]
  rfl

/-- Ids are distinct, so the mark reaches no node but the one that was picked. -/
theorem one_initial_ofNodes (id : String) (path : Option String) {g : Draft} (hne : g.nodes ≠ [])
    (hnodup : g.ids.Nodup) :
    ∃ before n after, (ofNodes id path g).nodes = before ++ n :: after ∧
      StartsBetween before n after ∧ n.isInitial = true ∧
      (∀ k ∈ before ++ after, k.isInitial = false) ∧ (ofNodes id path g).initial = n.id := by
  obtain ⟨before, n, after, hnodes, hinit, hstart⟩ := initialNode?_spec hne
  have hother : ∀ k ∈ before ++ after, k.id ≠ n.id := by
    have hperm : (n.id :: (before ++ after).map (·.id)).Nodup := by
      rw [Draft.ids, hnodes] at hnodup
      exact (List.perm_middle.map Node.id).nodup_iff.mp hnodup
    intro k hk he
    exact (List.nodup_cons.mp hperm).1 (he ▸ List.mem_map_of_mem hk)
  refine ⟨before.map (marked n.id), marked n.id n, after.map (marked n.id), ?_, ?_, ?_, ?_, ?_⟩
  · rw [nodes_ofNodes id path hinit, hnodes, List.map_append, List.map_cons]
  · simpa [StartsBetween, Node.HasOpeningName, marked] using hstart
  · simp [marked]
  · rw [← List.map_append]
    intro k hk
    obtain ⟨k', hk', rfl⟩ := List.mem_map.mp hk
    simpa [marked] using hother k' hk'
  · rw [initial_ofNodes id path hinit]
    rfl

/-- A draft with distinct state names, closed edges and distinct classes gives a well-formed
diagram; whether its nodes are marked as initial does not matter. -/
theorem wellFormed_ofNodes (id : String) (path : Option String) {g : Draft} (hne : g.nodes ≠ [])
    (hnodup : g.ids.Nodup) (hnamed : ∀ id ∈ g.ids, IsStateName id)
    (hedges : ∀ e ∈ g.edges, e.source ∈ g.ids ∧ e.target ∈ g.ids)
    (hclasses : ∀ n ∈ g.nodes, n.classes.Nodup) : (ofNodes id path g).WellFormed where
  nodes_ne_nil := by simpa [ofNodes] using hne
  ids_nodup := by rwa [nodeIds_ofNodes]
  ids_named := by rwa [nodeIds_ofNodes]
  edges_closed := by
    rw [nodeIds_ofNodes]
    exact hedges
  one_initial := one_initial_ofNodes id path hne hnodup
  finals_eq := rfl
  classes_nodup := by
    intro k hk
    obtain ⟨k', hk', rfl⟩ := List.mem_map.mp hk
    exact hclasses k' hk'

/-- The name of the placeholder is a state name, and it is alone. -/
theorem wellFormed_placeholder (id : String) (path : Option String) (line : Option Int) {g : Draft}
    (hedges : g.edges = []) :
    (ofNodes id path { g with nodes := [placeholder line] }).WellFormed := by
  refine wellFormed_ofNodes id path (by simp) (by simp [Draft.ids]) ?_ (by simp [hedges]) ?_
  · intro id hid
    obtain rfl : id = "EmptyState" := by simpa [Draft.ids, placeholder] using hid
    have hname : Statement.isStateName "EmptyState".toList = true := by decide
    simpa using Statement.isStateName_ofList hname
  · simp [placeholder]

theorem wellFormed_of_assemble {options : ReadOptions} {ss : List Statement} {id : String}
    {path : Option String} {startLine : Option Int} {d : Diagram} (hss : ∀ s ∈ ss, s.Named)
    (h : (assemble options ss id path startLine).1 = some d) : d.WellFormed := by
  have hids := Draft.ids_ofStatements options.labelLimit ss
  unfold assemble at h
  dsimp only at h
  split_ifs at h with hempty hplaceholder
  · have hnil : (Draft.ofStatements options.labelLimit ss).ids = [] := by
      simpa [Draft.ids] using hempty
    -- A draft without nodes has no edges: both ends of one would be nodes.
    have hedges : (Draft.ofStatements options.labelLimit ss).edges = [] := by
      refine List.eq_nil_iff_forall_not_mem.mpr fun e he => ?_
      simpa [hnil] using (Draft.ids_of_edge he).1
    obtain rfl := Option.some.inj h
    exact wellFormed_placeholder id path startLine hedges
  · obtain rfl := Option.some.inj h
    refine wellFormed_ofNodes id path (by simpa using hempty) ?_ ?_ ?_ ?_
    · rw [hids]
      exact nodup_eraseDups _
    · intro k hk
      rw [hids, List.mem_eraseDups, List.mem_flatMap] at hk
      obtain ⟨s, hs, hk⟩ := hk
      exact hss s hs k hk
    · exact fun e he => Draft.ids_of_edge he
    · exact Draft.nodup_classes_ofStatements options.labelLimit ss

end Diagram

namespace Source

/-- Every diagram of a run of blocks comes from one of the blocks. -/
theorem exists_block_of_mem {options : ReadOptions} {base : String} {path : Option String}
    {index : Nat} {blocks : List Block} {d : Diagram}
    (h : d ∈ (readBlocks options base path index blocks).1) :
    ∃ b ∈ blocks, ∃ id, (readBlock options id path b).1 = some d := by
  induction blocks generalizing index with
  | nil => simp [readBlocks] at h
  | cons b rest ih =>
    rcases List.mem_append.mp h with here | more
    · exact ⟨b, by simp, _, by simpa using here⟩
    · obtain ⟨b', hb', hd⟩ := ih more
      exact ⟨b', by simp [hb'], hd⟩

theorem exists_mem_ofText_of_mem_read {options : ReadOptions} {text : String}
    {name path : Option String} {d : Diagram} (h : d ∈ (read options text name path).diagrams) :
    ∃ b ∈ Block.ofText text.toList, ∃ id, (readBlock options id path b).1 = some d := by
  unfold read at h
  dsimp only at h
  split at h
  · simp at h
  · exact exists_block_of_mem h

theorem exists_block_of_mem_read {options : ReadOptions} {text : String} {name path : Option String}
    {d : Diagram} (h : d ∈ (read options text name path).diagrams) :
    ∃ (b : Block) (id : String), (readBlock options id path b).1 = some d := by
  obtain ⟨b, -, id, hd⟩ := exists_mem_ofText_of_mem_read h
  exact ⟨b, id, hd⟩

theorem wellFormed_of_readBlock {options : ReadOptions} {id : String} {path : Option String}
    {b : Block} {d : Diagram} (h : (readBlock options id path b).1 = some d) : d.WellFormed :=
  Diagram.wellFormed_of_assemble b.named_of_read h

/-- Whatever the text, the options and the name of a source are, its diagrams are well formed. -/
theorem wellFormed_of_mem_read {options : ReadOptions} {text : String} {name path : Option String}
    {d : Diagram} (h : d ∈ (read options text name path).diagrams) : d.WellFormed := by
  obtain ⟨b, id, hb⟩ := exists_block_of_mem_read h
  exact wellFormed_of_readBlock hb

/-- The initial name wins over the front of the list, and a class that is given twice is kept
once. -/
theorem wellFormed_of_mem_read_menu :
    ∃ d ∈
      (read {} "flowchart TD\nMenu -->|stop| Idle((Bye))\nclass Menu,Menu core" none none).diagrams,
      d.nodeIds = ["Menu", "Idle"] ∧ d.initial = "Idle" ∧ d.WellFormed := by
  have hd : ∃ d ∈ (read {} "flowchart TD\nMenu -->|stop| Idle((Bye))\nclass Menu,Menu core"
      none none).diagrams, d.nodeIds = ["Menu", "Idle"] ∧ d.initial = "Idle" := by
    decide +kernel
  obtain ⟨d, hmem, hids, hinitial⟩ := hd
  exact ⟨d, hmem, hids, hinitial, wellFormed_of_mem_read hmem⟩

end Source

end FlowMachine
