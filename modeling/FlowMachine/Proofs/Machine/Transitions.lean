import FlowMachine.Machine.Derive
import FlowMachine.Proofs.Diagram.WellFormed
import Mathlib.Data.List.Perm.Basic

/-!
# Transitions of a derived machine

Edges are regrouped by the node they leave. Over a well-formed diagram the groups hold every edge
once, so the machine has one transition for each edge and its states are the nodes.
-/
namespace FlowMachine

/-- Items that are grouped by distinct keys are the items whose key occurs. -/
theorem flatMap_filter_perm {α : Type*} (key : α → String) (xs : List α) {keys : List String}
    (h : keys.Nodup) :
    (keys.flatMap fun k => xs.filter (key · == k)).Perm
      (xs.filter fun x => keys.contains (key x)) := by
  induction keys with
  | nil => simp
  | cons k keys ih =>
    obtain ⟨hk, hkeys⟩ := List.nodup_cons.mp h
    have here : (xs.filter fun x => (k :: keys).contains (key x)).filter (key · == k) =
        xs.filter (key · == k) := by
      rw [List.filter_filter]
      refine List.filter_congr fun x _ => ?_
      by_cases hx : key x = k <;> simp [hx]
    have others : (xs.filter fun x => (k :: keys).contains (key x)).filter
        (fun x => !(key x == k)) =
        xs.filter fun x => keys.contains (key x) := by
      rw [List.filter_filter]
      refine List.filter_congr fun x _ => ?_
      by_cases hx : key x = k
      · simp [hx, hk]
      · simp [hx]
    rw [List.flatMap_cons]
    refine ((ih hkeys).append_left _).trans ?_
    rw [← here, ← others]
    exact List.filter_append_perm _ _

theorem total_map_length {α β : Type*} (f : α → List β) (xs : List α) :
    total (xs.map fun x => (f x).length) = (xs.flatMap f).length := by
  induction xs with
  | nil => rfl
  | cons x xs ih => rw [List.map_cons, total_cons, ih, List.flatMap_cons, List.length_append]

namespace Diagram

/-- Going through the nodes and the edges that leave them meets every edge once. -/
theorem outgoing_perm {d : Diagram} (h : d.WellFormed) :
    (d.nodes.flatMap fun n => d.outgoing n.id).Perm d.edges := by
  have hgroups := flatMap_filter_perm Edge.source d.edges h.ids_nodup
  have hall : d.edges.filter (fun e => d.nodeIds.contains e.source) = d.edges := by
    refine List.filter_eq_self.mpr fun e he => ?_
    simpa using (h.edges_closed e he).1
  rw [hall, nodeIds, List.flatMap_map] at hgroups
  exact hgroups

end Diagram

namespace Machine

/-- The machine has the nodes of the diagram as states, and the images of the edges that leave a
node as the transitions of its state. -/
structure Follows (m : Machine) (d : Diagram) (image : Edge → Transition) : Prop where
  names_eq : m.states.map (·.name) = d.nodeIds
  target_eq : ∀ e, (image e).target = some e.target
  transitions_eq : ∀ s ∈ m.states, s.transitions = (d.edges.filter (·.source == s.name)).map image
  /-- No edge is lost and none occurs twice. -/
  edges_perm : (m.states.flatMap fun s => s.transitions.map fun t => (s.name, t)).Perm
    (d.edges.map fun e => (e.source, image e))
  count_eq : m.transitionCount = d.edges.length
  targets_closed : ∀ s ∈ m.states, ∀ t ∈ s.transitions,
    ∃ target ∈ m.states.map (·.name), t.target = some target
  initial_mem : m.initial ∈ m.states.map (·.name)
  finals_eq : m.finals = d.finals

@[simp] theorem states_derive (o : DeriveOptions) (d : Diagram) :
    (derive o d).states = statesOf d := rfl

theorem names_statesOf (d : Diagram) : (statesOf d).map (·.name) = d.nodeIds := by
  simp [statesOf, stateOf, Diagram.nodeIds, Function.comp_def]

theorem transitions_statesOf {d : Diagram} {s : State} (h : s ∈ statesOf d) :
    s.transitions = (d.outgoing s.name).map (transitionOf (guardsOf d.edges)) := by
  obtain ⟨n, -, rfl⟩ := List.mem_map.mp h
  rfl

theorem finals_statesOf (d : Diagram) :
    ((statesOf d).filter (·.kind == .final)).map (·.name) =
      (d.nodes.filter (·.isFinal)).map (·.id) := by
  have hkind : ∀ n : Node, (stateOf d (guardsOf d.edges) n).kind == .final ↔ n.isFinal := by
    intro n
    cases hn : n.isFinal <;> simp [stateOf, hn]
  rw [statesOf, List.filter_map, List.map_map]
  have hfilter : d.nodes.filter ((fun s : State => s.kind == .final) ∘
      stateOf d (guardsOf d.edges)) = d.nodes.filter (·.isFinal) :=
    List.filter_congr fun n _ => Bool.eq_iff_iff.mpr (hkind n)
  rw [hfilter]
  rfl

/-- The transitions with the states they leave, as one list. -/
theorem flatMap_transitions_statesOf (d : Diagram) :
    (statesOf d).flatMap (fun s => s.transitions.map fun t => (s.name, t)) =
      (d.nodes.flatMap fun n => d.outgoing n.id).map
        fun e => (e.source, transitionOf (guardsOf d.edges) e) := by
  rw [statesOf, List.flatMap_map, List.map_flatMap]
  refine List.flatMap_congr fun n _ => ?_
  simp only [stateOf, List.map_map]
  refine List.map_congr_left fun e he => ?_
  have hsource : e.source = n.id := by simpa using (List.mem_filter.mp he).2
  simp [hsource]

theorem follows_derive (o : DeriveOptions) {d : Diagram} (h : d.WellFormed) :
    (derive o d).Follows d (transitionOf (guardsOf d.edges)) where
  names_eq := names_statesOf d
  target_eq := fun _ => rfl
  transitions_eq := fun s hs => transitions_statesOf hs
  edges_perm := by
    rw [states_derive, flatMap_transitions_statesOf]
    exact (Diagram.outgoing_perm h).map _
  count_eq := by
    have hlength : (statesOf d).map (·.transitions.length) =
        d.nodes.map fun n => (d.outgoing n.id).length := by
      simp [statesOf, stateOf, Function.comp_def]
    rw [transitionCount, states_derive, hlength, total_map_length]
    exact (Diagram.outgoing_perm h).length_eq
  targets_closed := by
    intro s hs t ht
    rw [transitions_statesOf hs] at ht
    obtain ⟨e, he, rfl⟩ := List.mem_map.mp ht
    rw [states_derive, names_statesOf]
    exact ⟨e.target, (h.edges_closed e (List.mem_filter.mp he).1).2, rfl⟩
  initial_mem := by
    rw [states_derive, names_statesOf]
    exact h.initial_mem
  finals_eq := by
    rw [h.finals_eq]
    exact finals_statesOf d

/-- Whatever text a diagram is read from, its machine follows it edge by edge. -/
theorem follows_derive_of_mem_read {options : ReadOptions} {text : String}
    {name path : Option String} {d : Diagram} (o : DeriveOptions)
    (h : d ∈ (Source.read options text name path).diagrams) :
    (derive o d).Follows d (transitionOf (guardsOf d.edges)) := by
  obtain ⟨b, id, hb⟩ := Source.exists_block_of_mem_read h
  exact follows_derive o (Source.wellFormed_of_readBlock hb)

/-- Two edges between the same nodes with the same label are two transitions. -/
theorem follows_derive_twice :
    ∃ d ∈ (Source.read {} "flowchart TD\nA -->|go| B\nB --> A\nA -->|go| B" none none).diagrams,
      d.edges.length = 3 ∧ (derive {} d).Follows d (transitionOf (guardsOf d.edges)) := by
  have hd : ∃ d ∈ (Source.read {} "flowchart TD\nA -->|go| B\nB --> A\nA -->|go| B"
      none none).diagrams, d.edges.length = 3 := by
    decide +kernel
  obtain ⟨d, hmem, hlength⟩ := hd
  exact ⟨d, hmem, hlength, follows_derive_of_mem_read {} hmem⟩

end Machine

end FlowMachine
