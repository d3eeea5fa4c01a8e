import FlowMachine.Machine.Derive
import FlowMachine.Proofs.FirstPlaces
import FlowMachine.Proofs.Identifier
import Mathlib.Data.List.Forall2

/-!
# Names of a derived machine

Guards, actions and events are collected in separate passes over the edges. This module says which
names each pass collects, that all of them can be used as they are, and that the passes agree:
whatever a state refers to is in the list it refers to.
-/
namespace FlowMachine.Machine

open FlowMachine.Identifier

theorem mem_distinct {names : List String} {name : String} :
    name ∈ distinct names ↔ name ∈ names ∧ name ≠ "" := by
  simp [distinct, List.mem_eraseDups, List.mem_filter]

theorem nodup_distinct (names : List String) : (distinct names).Nodup := nodup_eraseDups _

/-- The method that a conditional edge needs for its source. -/
def sourceCheck (source : String) : String := s!"is_{snake source}_valid"

theorem sourceCheck_eq (source : String) :
    sourceCheck source = "is_" ++ (snake source ++ "_valid") := by
  simp [sourceCheck, toString, String.append_assoc]

theorem isLead_guard : IsLead ("guard" ++ "_") := by decide

theorem isLead_action : IsLead ("action" ++ "_") := by decide

theorem isLead_is : IsLead "is_" := by decide

theorem isLead_standardActions : ∀ name ∈ standardActions, IsLead name := by decide

theorem usable_guardMethodName (guard : String) : Usable (guardMethodName guard) :=
  usable_method guard standardActions isLead_guard

theorem usable_sourceCheck (source : String) : Usable (sourceCheck source) := by
  rw [sourceCheck_eq]
  refine usable_append isLead_is fun c hc => ?_
  rw [String.toList_append] at hc
  rcases List.mem_append.mp hc with hc | hc
  · exact isSnakeChar_of_mem_snake hc
  · have hvalid : "_valid".toList.all isSnakeChar = true := by decide
    exact List.all_eq_true.mp hvalid c hc

/-- The guards are the methods of the references, and one check for each source of a conditional
edge. -/
theorem mem_guardsOf {edges : List Edge} {name : String} : name ∈ guardsOf edges ↔
    ∃ e ∈ edges, (∃ g, given e.guard = some g ∧ name = guardMethodName g) ∨
      (e.kind = .conditional ∧ name = sourceCheck e.source) := by
  have hmem : ∀ e : Edge, name ∈ (given e.guard).toList.map guardMethodName ++
      (if e.kind == .conditional then [s!"is_{snake e.source}_valid"] else []) ↔
      (∃ g, given e.guard = some g ∧ name = guardMethodName g) ∨
        (e.kind = .conditional ∧ name = sourceCheck e.source) := by
    intro e
    rw [List.mem_append]
    refine or_congr ?_ ?_
    · simp [eq_comm]
    · by_cases hk : e.kind = .conditional <;> simp [hk, sourceCheck]
  rw [guardsOf, mem_distinct, List.mem_flatMap]
  constructor
  · rintro ⟨⟨e, he, hname⟩, -⟩
    exact ⟨e, he, (hmem e).mp hname⟩
  · rintro ⟨e, he, hname⟩
    refine ⟨⟨e, he, (hmem e).mpr hname⟩, ?_⟩
    obtain ⟨g, -, rfl⟩ | ⟨-, rfl⟩ := hname
    · exact (usable_guardMethodName g).ne_empty
    · exact (usable_sourceCheck e.source).ne_empty

theorem usable_of_mem_guardsOf {edges : List Edge} {name : String} (h : name ∈ guardsOf edges) :
    Usable name := by
  obtain ⟨e, -, ⟨g, -, rfl⟩ | ⟨-, rfl⟩⟩ := mem_guardsOf.mp h
  · exact usable_guardMethodName g
  · exact usable_sourceCheck e.source

/-- Everything a state of the machine does is a standard action or the action of an edge that leaves
its node. -/
theorem action_cases {d : Diagram} {s : State} (hs : s ∈ statesOf d) {name : String}
    (h : name ∈ s.entry ++ s.exit ++ s.transitions.flatMap (·.actions)) :
    name ∈ standardActions ∨ ∃ e ∈ d.edges, ∃ a, given e.action = some a ∧
      name = method a "action" (guardsOf d.edges) := by
  obtain ⟨n, -, rfl⟩ := List.mem_map.mp hs
  have hentry : ∀ c : Category, ∀ a ∈ entryTrace :: c.entryAction?.toList, a ∈ standardActions := by
    intro c
    cases c <;> decide
  simp only [stateOf, List.mem_append, List.mem_flatMap, List.mem_map] at h
  rcases h with (h | h) | ⟨t, ⟨e, he, rfl⟩, ht⟩
  · exact .inl (hentry d.category name h)
  · split at h
    · obtain rfl := List.mem_singleton.mp h
      exact .inl (by decide)
    · simp at h
  · simp only [transitionOf, List.mem_map, Option.mem_toList] at ht
    obtain ⟨a, ha, rfl⟩ := ht
    exact .inr ⟨e, (List.mem_filter.mp he).1, a, ha, rfl⟩

theorem usable_action {d : Diagram} {s : State} (hs : s ∈ statesOf d) {name : String}
    (h : name ∈ s.entry ++ s.exit ++ s.transitions.flatMap (·.actions)) : Usable name := by
  obtain hstandard | ⟨e, -, a, -, rfl⟩ := action_cases hs h
  · exact usable_of_isLead (isLead_standardActions name hstandard)
  · exact usable_method a (guardsOf d.edges) isLead_action

/-- The actions of the machine are everything its states do: no name is empty, so none is left
out. -/
theorem mem_actionsOf_statesOf {d : Diagram} {name : String} : name ∈ actionsOf (statesOf d) ↔
    ∃ s ∈ statesOf d, name ∈ s.entry ++ s.exit ++ s.transitions.flatMap (·.actions) := by
  rw [actionsOf, mem_distinct, List.mem_flatMap]
  constructor
  · exact fun h => h.1
  · rintro ⟨s, hs, hname⟩
    exact ⟨⟨s, hs, hname⟩, (usable_action hs hname).ne_empty⟩

theorem usable_of_mem_actionsOf {d : Diagram} {name : String} (h : name ∈ actionsOf (statesOf d)) :
    Usable name := by
  obtain ⟨s, hs, hname⟩ := mem_actionsOf_statesOf.mp h
  exact usable_action hs hname

/-! ## The catalog of events -/

theorem eventSpec?_eq_some {e : Edge} {spec : Event} (h : eventSpec? e = some spec) :
    spec.name = Label.eventName e.label := by
  unfold eventSpec? at h
  dsimp only at h
  split at h
  · cases h
  · obtain rfl := Option.some.inj h
    rfl

theorem exists_eventSpec? {e : Edge} (h : Label.eventName e.label ≠ "") :
    ∃ spec, eventSpec? e = some spec := by
  have hempty : (Label.eventName e.label).isEmpty = false := by simpa using h
  simp [eventSpec?, hempty]

theorem names_addEvent (events : List Event) (e : Event) :
    (addEvent events e).map (·.name) = enter (events.map (·.name)) e.name := by
  have hany : events.any (·.name == e.name) = (events.map (·.name)).contains e.name := by
    rw [Bool.eq_iff_iff]
    simp only [List.any_eq_true, beq_iff_eq, List.contains_iff_mem, List.mem_map]
  unfold addEvent enter
  rw [hany]
  split <;> simp

theorem names_foldl_addEvent (es events : List Event) :
    (es.foldl addEvent events).map (·.name) =
      (es.map (·.name)).foldl enter (events.map (·.name)) := by
  induction es generalizing events with
  | nil => rfl
  | cons e es ih => rw [List.foldl_cons, ih, names_addEvent, List.map_cons, List.foldl_cons]

theorem names_eventsOf (edges : List Edge) :
    (eventsOf edges).map (·.name) = ((edges.filterMap eventSpec?).map (·.name)).eraseDups := by
  rw [eventsOf, names_foldl_addEvent, ← foldl_enter_nil]
  rfl

theorem eventName_mem_eventsOf {edges : List Edge} {e : Edge} (he : e ∈ edges)
    (h : Label.eventName e.label ≠ "") :
    Label.eventName e.label ∈ (eventsOf edges).map (·.name) := by
  obtain ⟨spec, hspec⟩ := exists_eventSpec? h
  rw [names_eventsOf, List.mem_eraseDups, ← eventSpec?_eq_some hspec]
  exact List.mem_map_of_mem (List.mem_filterMap.mpr ⟨e, he, hspec⟩)

/-- Every event of a catalog is named by an edge. -/
theorem exists_edge_of_mem_eventNames {o : DeriveOptions} {d : Diagram} {name : String}
    (h : name ∈ (derive o d).eventNames) :
    ∃ e ∈ d.edges, Label.eventName e.label = name ∧ eventOf e = name := by
  have hcatalog : name ∈ (eventsOf d.edges).map (·.name) := by
    have hevents : (derive o d).events = if o.events then eventsOf d.edges else [] := rfl
    rw [eventNames, hevents] at h
    split_ifs at h
    · exact h
    · simp at h
  rw [names_eventsOf, List.mem_eraseDups] at hcatalog
  obtain ⟨spec, hspec, rfl⟩ := List.mem_map.mp hcatalog
  obtain ⟨e, he, hfound⟩ := List.mem_filterMap.mp hspec
  have hname := eventSpec?_eq_some hfound
  have hgiven : Label.eventName e.label ≠ "" := by
    intro hempty
    simp [eventSpec?, hempty] at hfound
  exact ⟨e, he, hname.symm, by simp [eventOf, hgiven, hname]⟩

/-! ## Closed machines -/

/-- The transition carries the event that the label of the edge names, and the catalog knows it; an
edge that names none gets the event for that case. -/
def EventOf (m : Machine) (e : Edge) (t : Transition) : Prop :=
  (Label.eventName e.label ≠ "" ∧ t.event = Label.eventName e.label ∧ t.event ∈ m.eventNames) ∨
    (Label.eventName e.label = "" ∧ t.event = "UNKNOWN")

/-- Whatever the states of a machine refer to is listed, lists have no repetitions, every listed
method can be written, and transitions carry the events of the edges of their state. -/
structure Closed (m : Machine) (d : Diagram) : Prop where
  guard_mem : ∀ s ∈ m.states, ∀ t ∈ s.transitions, ∀ g, t.guard = some g → g ∈ m.guards
  entry_mem : ∀ s ∈ m.states, ∀ a ∈ s.entry, a ∈ m.actions
  exit_mem : ∀ s ∈ m.states, ∀ a ∈ s.exit, a ∈ m.actions
  action_mem : ∀ s ∈ m.states, ∀ t ∈ s.transitions, ∀ a ∈ t.actions, a ∈ m.actions
  guards_nodup : m.guards.Nodup
  actions_nodup : m.actions.Nodup
  events_nodup : m.eventNames.Nodup
  guard_usable : ∀ g ∈ m.guards, Usable g
  action_usable : ∀ a ∈ m.actions, Usable a
  events_eq : ∀ s ∈ m.states,
    List.Forall₂ (m.EventOf) (d.edges.filter (·.source == s.name)) s.transitions

theorem eventOf_transitionOf {d : Diagram} {e : Edge} (he : e ∈ d.edges) (taken : List String) :
    (derive {} d).EventOf e (transitionOf taken e) := by
  by_cases h : Label.eventName e.label = ""
  · exact .inr ⟨h, by simp [transitionOf, eventOf, h, unnamedEvent]⟩
  · have hevent : (transitionOf taken e).event = Label.eventName e.label := by
      simp [transitionOf, eventOf, h]
    refine .inl ⟨h, hevent, ?_⟩
    rw [hevent]
    exact eventName_mem_eventsOf he h

/-- The machine of any diagram is closed. -/
theorem closed_derive (d : Diagram) : (derive {} d).Closed d where
  guard_mem := by
    intro s hs t ht g hg
    obtain ⟨n, -, rfl⟩ := List.mem_map.mp hs
    obtain ⟨e, he, rfl⟩ := List.mem_map.mp ht
    obtain ⟨reference, href, rfl⟩ := Option.map_eq_some_iff.mp hg
    exact mem_guardsOf.mpr ⟨e, (List.mem_filter.mp he).1, .inl ⟨reference, href, rfl⟩⟩
  entry_mem := fun s hs a ha => mem_actionsOf_statesOf.mpr ⟨s, hs, by simp [ha]⟩
  exit_mem := fun s hs a ha => mem_actionsOf_statesOf.mpr ⟨s, hs, by simp [ha]⟩
  action_mem := by
    intro s hs t ht a ha
    refine mem_actionsOf_statesOf.mpr ⟨s, hs, List.mem_append.mpr (.inr ?_)⟩
    exact List.mem_flatMap.mpr ⟨t, ht, ha⟩
  guards_nodup := nodup_distinct _
  actions_nodup := nodup_distinct _
  events_nodup := by
    show ((eventsOf d.edges).map (·.name)).Nodup
    rw [names_eventsOf]
    exact nodup_eraseDups _
  guard_usable := fun g hg => usable_of_mem_guardsOf hg
  action_usable := fun a ha => usable_of_mem_actionsOf ha
  events_eq := by
    intro s hs
    obtain ⟨n, -, rfl⟩ := List.mem_map.mp hs
    refine List.forall₂_map_right_iff.mpr (List.forall₂_same.mpr fun e he => ?_)
    exact eventOf_transitionOf (List.mem_filter.mp he).1 _

end FlowMachine.Machine
