import FlowMachine.Diagram.Graph
import FlowMachine.Proofs.FirstPlaces
import FlowMachine.Reachability
import Mathlib.Data.List.Perm.Subperm
import Mathlib.Logic.Relation

/-!
# What a search finds

The search for reachable states sees a state at most once, and every state it sees is the start or
the target of a link. Taking one state a step it is therefore done before its fuel is, with exactly
the states that a path of links leads to.
-/
namespace FlowMachine

variable {next : String → List String} {targets : List String} {start : String}

/-- A path of links leads from one state to another; it may be empty. -/
def Leads (next : String → List String) : String → String → Prop :=
  Relation.ReflTransGen fun a b => b ∈ next a

/-- What holds of a search from `start` whenever it takes a state from its queue, where `targets`
are the states that links lead to. -/
structure Searching (next : String → List String) (targets : List String) (start : String)
    (fuel : Nat) (queue seen : List String) : Prop where
  start_mem : start ∈ seen
  nodup : seen.Nodup
  queued : queue ⊆ seen
  known : seen ⊆ start :: targets
  led : ∀ s ∈ seen, Leads next start s
  /-- Of a state that was taken from the queue, all links were followed. -/
  followed : ∀ s ∈ seen, s ∉ queue → next s ⊆ seen
  /-- There is fuel for the states in the queue and for those not yet seen. -/
  fueled : targets.length + 1 + queue.length ≤ fuel + seen.length

namespace Searching

variable {fuel : Nat} {queue seen : List String}

theorem length_le (h : Searching next targets start fuel queue seen) :
    seen.length ≤ targets.length + 1 := by
  simpa using (h.nodup.subperm h.known).length_le

/-- A search with an empty queue has seen all states that a path leads to. -/
theorem mem_iff_of_queue_nil (h : Searching next targets start fuel [] seen) {t : String} :
    t ∈ seen ↔ Leads next start t := by
  refine ⟨h.led t, fun hpath => ?_⟩
  induction hpath with
  | refl => exact h.start_mem
  | tail _ hlink ih => exact h.followed _ ih (by simp) hlink

/-- One step: the first state of the queue is taken, and what it links to and was not seen is
appended. -/
theorem step {s : String} (hlinks : ∀ s, next s ⊆ targets)
    (h : Searching next targets start (fuel + 1) (s :: queue) seen) :
    let fresh := (next s).eraseDups.filter (!seen.contains ·)
    Searching next targets start fuel (queue ++ fresh) (seen ++ fresh) := by
  intro fresh
  obtain ⟨hs, hqueued⟩ := List.cons_subset.mp h.queued
  have hmem {t : String} : t ∈ fresh ↔ t ∈ next s ∧ t ∉ seen := by simp [fresh]
  have hall : next s ⊆ seen ++ fresh := fun t ht => by
    by_cases hseen : t ∈ seen
    · exact List.mem_append_left _ hseen
    · exact List.mem_append_right _ (hmem.mpr ⟨ht, hseen⟩)
  refine ⟨List.mem_append_left _ h.start_mem, ?_, ?_, ?_, ?_, ?_, ?_⟩
  · refine List.nodup_append.mpr ⟨h.nodup, (nodup_eraseDups _).filter _, ?_⟩
    rintro a ha b hb rfl
    exact (hmem.mp hb).2 ha
  · refine List.append_subset.mpr ⟨?_, List.subset_append_right _ _⟩
    exact List.Subset.trans hqueued (List.subset_append_left _ _)
  · refine List.append_subset.mpr ⟨h.known, fun t ht => ?_⟩
    exact List.mem_cons_of_mem _ (hlinks s (hmem.mp ht).1)
  · intro t ht
    rcases List.mem_append.mp ht with hseen | hfresh
    · exact h.led t hseen
    · exact (h.led s hs).tail (hmem.mp hfresh).1
  · intro t ht hqueue
    simp only [List.mem_append, not_or] at hqueue
    have hseen : t ∈ seen := (List.mem_append.mp ht).resolve_right hqueue.2
    by_cases hts : t = s
    · exact hts ▸ hall
    · have hfollowed := h.followed t hseen (by simp [hts, hqueue.1])
      exact List.Subset.trans hfollowed (List.subset_append_left _ _)
  · have := h.fueled
    simp only [List.length_append, List.length_cons] at this ⊢
    omega

end Searching

/-- A run of the search, by the fuel that is left. -/
theorem mem_visit_iff (hlinks : ∀ s, next s ⊆ targets) {fuel : Nat} {queue seen : List String}
    (h : Searching next targets start fuel queue seen) {t : String} :
    t ∈ visit next fuel queue seen ↔ Leads next start t := by
  induction fuel generalizing queue seen with
  | zero =>
    -- all targets are seen, so nothing is left in the queue
    have hempty : queue = [] := by
      have hlength := h.length_le
      have hfueled := h.fueled
      exact List.length_eq_zero_iff.mp (by omega)
    subst hempty
    exact h.mem_iff_of_queue_nil
  | succ fuel ih =>
    cases queue with
    | nil => exact h.mem_iff_of_queue_nil
    | cons s queue => exact ih (h.step hlinks)

/-- With a bound on the number of links, the states found are those that a path leads to. -/
theorem mem_reachable_iff {links : Nat} (hlinks : ∀ s, next s ⊆ targets)
    (hcount : targets.length ≤ links) {t : String} :
    t ∈ reachable next links start ↔ Leads next start t := by
  refine mem_visit_iff hlinks ⟨by simp, by simp, List.Subset.refl _, by simp, ?_, by simp, ?_⟩
  · intro s hs
    obtain rfl := List.mem_singleton.mp hs
    exact .refl
  · simp only [List.length_cons, List.length_nil]
    omega

namespace Diagram

/-- The targets of the edges that leave a node. -/
def targetsOf (d : Diagram) (id : String) : List String := (d.outgoing id).map (·.target)

/-- A path of edges leads from one node to another; it may be empty. -/
def HasPath (d : Diagram) : String → String → Prop :=
  Relation.ReflTransGen fun a b => ∃ e ∈ d.edges, e.source = a ∧ e.target = b

theorem mem_targetsOf {d : Diagram} {a b : String} :
    b ∈ d.targetsOf a ↔ ∃ e ∈ d.edges, e.source = a ∧ e.target = b := by
  simp [targetsOf, outgoing, and_assoc]

theorem leads_targetsOf (d : Diagram) : Leads d.targetsOf = d.HasPath := by
  simp only [Leads, HasPath, mem_targetsOf]

/-- A path can be looked for, since every edge adds at most one state to those that are seen. -/
instance (d : Diagram) (a b : String) : Decidable (d.HasPath a b) :=
  decidable_of_iff (b ∈ reachable d.targetsOf d.edges.length a) <| by
    rw [← leads_targetsOf]
    have hlinks (s : String) : d.targetsOf s ⊆ d.edges.map (·.target) :=
      List.map_subset _ List.filter_sublist.subset
    exact mem_reachable_iff hlinks (by simp)

end Diagram

end FlowMachine
