import FlowMachine.Emit.Boundaries
import FlowMachine.Proofs.Machine.Names
import FlowMachine.Proofs.Machine.Transitions

/-!
# The events that the boundary suite probes

The suite sends an event in the first state that has it, and would leave out an event that no state
has. A machine out of a well-formed diagram has no such event: an edge names it, the edge leaves a
node, and the state of this node has a transition with it.
-/
namespace FlowMachine

namespace Machine

/-- The name is that of the first state with a transition for the event. -/
def IsFirstSource (m : Machine) (event name : String) : Prop :=
  ∃ before s after, m.states = before ++ s :: after ∧ s.name = name ∧
    (∃ t ∈ s.transitions, t.event = event) ∧
    ∀ other ∈ before, ∀ t ∈ other.transitions, t.event ≠ event

/-- Every event of the catalog has a transition. -/
theorem exists_transition_of_mem_eventNames {d : Diagram} (h : d.WellFormed) {o : DeriveOptions}
    {name : String}
    (hname : name ∈ (derive o d).eventNames) :
    ∃ s ∈ (derive o d).states, ∃ t ∈ s.transitions, t.event = name := by
  obtain ⟨e, he, -, hevent⟩ := exists_edge_of_mem_eventNames hname
  have hrows := (follows_derive o h).edges_perm
  have hedge : (e.source, transitionOf (guardsOf d.edges) e) ∈
      (derive o d).states.flatMap fun s => s.transitions.map fun t => (s.name, t) :=
    hrows.mem_iff.mpr (List.mem_map.mpr ⟨e, he, rfl⟩)
  obtain ⟨s, hs, hrow⟩ := List.mem_flatMap.mp hedge
  obtain ⟨t, ht, heq⟩ := List.mem_map.mp hrow
  refine ⟨s, hs, t, ht, ?_⟩
  rw [(Prod.mk.inj heq).2, transitionOf, hevent]

end Machine

namespace Emit

variable {m : Machine}

theorem firstSource?_eq_some_iff {event name : String} :
    firstSource? m event = some name ↔ m.IsFirstSource event name := by
  simp only [firstSource?, Machine.IsFirstSource, Option.map_eq_some_iff,
    List.find?_eq_some_iff_append,
    List.any_eq_true, Bool.not_eq_true', List.any_eq_false, beq_iff_eq]
  constructor
  · rintro ⟨s, ⟨hhas, before, after, hstates, hnot⟩, rfl⟩
    exact ⟨before, s, after, hstates, rfl, hhas, hnot⟩
  · rintro ⟨before, s, after, hstates, rfl, hhas, hnot⟩
    exact ⟨s, ⟨hhas, before, after, hstates, hnot⟩, rfl⟩

theorem exists_firstSource? {event : String}
    (h : ∃ s ∈ m.states, ∃ t ∈ s.transitions, t.event = event) :
    ∃ name, firstSource? m event = some name := by
  rw [← Option.isSome_iff_exists, firstSource?, Option.isSome_map, List.find?_isSome]
  obtain ⟨s, hs, t, ht, hevent⟩ := h
  exact ⟨s, hs, List.any_eq_true.mpr ⟨t, ht, by simpa using hevent⟩⟩

/-- Cases are about the first state that has their event. -/
theorem isFirstSource_of_mem {c : EventCase} (h : c ∈ boundaryCases m) :
    m.IsFirstSource c.event c.source := by
  obtain ⟨e, -, hc⟩ := List.mem_flatMap.mp h
  split at hc
  · rename_i source hsource
    obtain ⟨field, -, rfl⟩ := List.mem_map.mp hc
    exact firstSource?_eq_some_iff.mp hsource
  · cases hc

/-- When every event has a state, no event is left out. -/
theorem map_boundaryCases
    (h : ∀ name ∈ m.eventNames, ∃ s ∈ m.states, ∃ t ∈ s.transitions, t.event = name) :
    (boundaryCases m).map (fun c => (c.event, c.field)) =
      m.events.flatMap fun e => (if e.payload = [] then ["payload"] else e.payload.map (·.name)).map
        fun field => (e.name, field) := by
  rw [boundaryCases, List.map_flatMap]
  refine List.flatMap_congr fun e he => ?_
  obtain ⟨source, hsource⟩ := exists_firstSource? (h e.name (List.mem_map_of_mem he))
  simp only [hsource, List.map_map, probedFields, List.isEmpty_iff]
  rfl

/-- Whatever text a diagram is read from, the suite probes all events of its machine in order, each
with every field of its payload or with the field `payload`, and each in the first state that has
it. -/
theorem boundaryCases_of_mem_read {options : ReadOptions} {text : String}
    {name path : Option String}
    {d : Diagram} (h : d ∈ (Source.read options text name path).diagrams) :
    let m := Machine.derive {} d
    (boundaryCases m).map (fun c => (c.event, c.field)) =
        (m.events.flatMap fun e =>
          (if e.payload = [] then ["payload"] else e.payload.map (·.name)).map
          fun field => (e.name, field)) ∧
      ∀ c ∈ boundaryCases m, m.IsFirstSource c.event c.source := by
  obtain ⟨b, id, hb⟩ := Source.exists_block_of_mem_read h
  have hd := Source.wellFormed_of_readBlock hb
  exact ⟨map_boundaryCases fun _ => Machine.exists_transition_of_mem_eventNames hd,
    fun _ => isFirstSource_of_mem⟩

/-- The first edge with an event need not leave the first state that has it. -/
theorem boundaryCases_of_mem_read_later :
    ∃ d ∈
      (Source.read {}
      ("flowchart TD\nA --> B\nB -->|enter input| A\nB -->|stop| A\nA -->|stop| B\n" ++
        "A -->|enter input| A") none none).diagrams,
      boundaryCases (Machine.derive {} d) =
        [⟨"ENTER_INPUT", "A", "input"⟩, ⟨"STOP", "A", "payload"⟩] ∧
      (boundaryCases (Machine.derive {} d)).map (fun c => (c.event, c.field)) =
        ((Machine.derive {} d).events.flatMap fun e =>
          (if e.payload = [] then ["payload"] else e.payload.map (·.name)).map fun field =>
          (e.name, field)) ∧
      ∀ c ∈ boundaryCases (Machine.derive {} d),
        (Machine.derive {} d).IsFirstSource c.event c.source := by
  have hd :
        ∃ d ∈
        (Source.read {}
        ("flowchart TD\nA --> B\nB -->|enter input| A\nB -->|stop| A\nA -->|stop| B\n" ++
        "A -->|enter input| A") none none).diagrams,
      boundaryCases (Machine.derive {} d) =
        [⟨"ENTER_INPUT", "A", "input"⟩, ⟨"STOP", "A", "payload"⟩] := by
    decide +kernel
  obtain ⟨d, hmem, hcases⟩ := hd
  exact ⟨d, hmem, hcases, boundaryCases_of_mem_read hmem⟩

end Emit

end FlowMachine
