import FlowMachine.Proofs.Diagram.Blocks
import FlowMachine.Proofs.Diagram.Departures
import FlowMachine.Proofs.Diagram.Touches

/-!
# What statements mean

The diagram of a list of statements can be told from the list alone. Its nodes are the mentioned ids
in order of their first mention. Of each node the first mention tells the line, the first
declaration the label, and all class and style statements together the classes. However mentions,
declarations and styles are mixed, nothing but this order counts.
-/
namespace FlowMachine

/-- The label that a declaration gives to its node: the id stands in for a label that is absent or
empty. -/
def NodeRef.shownLabel (r : NodeRef) : String :=
  match r.label with
  | some label => if label = "" then r.id else label
  | none => r.id

/-- The classes that a statement gives to the node of an id, in order. -/
def Statement.classesFor (id : String) : Statement → List String
  | .assign ids name _ => (ids.filter (· == id)).map fun _ => name
  | .style k _ classes _ => if k = id then classes else []
  | _ => []

/-- The node is what the statements say about its id. -/
structure Node.Means (ss : List Statement) (n : Node) : Prop where
  line : ∃ before s after, ss = before ++ s :: after ∧ n.id ∈ s.mentioned ∧
    (∀ t ∈ before, n.id ∉ t.mentioned) ∧ n.line = s.line
  declared : n.declared = true ↔ ∃ ref ∈ ss.flatMap Statement.declarations, ref.id = n.id
  label : n.label = match (ss.flatMap Statement.declarations).find? (·.id == n.id) with
    | some first => first.shownLabel
    | none => n.id
  classes : n.classes = (ss.flatMap (Statement.classesFor n.id)).eraseDups

/-- The diagram is the one that the statements describe. -/
structure Diagram.Means (ss : List Statement) (d : Diagram) : Prop where
  ids : d.nodeIds = (ss.flatMap Statement.mentioned).eraseDups
  nodes : ∀ n ∈ d.nodes, n.Means ss
  edges : d.edges = ss.flatMap Statement.drawn

namespace Touch

/-! ## What touches make of a node -/

variable (ts : List Touch) (n : Node)

theorem label_declaredNode (ref : NodeRef) (line : Option Int) :
    (Draft.declaredNode ref line).label = ref.shownLabel := by
  unfold Draft.declaredNode NodeRef.shownLabel
  cases ref.label with
  | none => simp
  | some label => simp [String.isEmpty_iff]

theorem line_foldl_change : (ts.foldl change n).line = n.line := by
  induction ts generalizing n with
  | nil => rfl
  | cons t ts ih =>
    rw [List.foldl_cons, ih]
    cases t with
    | declare ref line => by_cases h : n.declared <;> simp [change, h]
    | adorn id shape classes line => rfl

theorem declared_foldl_change :
    (ts.foldl change n).declared = (n.declared || (refs ts).head?.isSome) := by
  induction ts generalizing n with
  | nil => simp [refs]
  | cons t ts ih =>
    rw [List.foldl_cons, ih]
    cases t with
    | declare ref line => by_cases h : n.declared <;> simp [refs, change, h, Draft.declaredNode]
    | adorn id shape classes line => rfl

/-- The first declaration gives the label. -/
theorem label_foldl_change : (ts.foldl change n).label =
    if n.declared then n.label else ((refs ts).head?.map NodeRef.shownLabel).getD n.label := by
  induction ts generalizing n with
  | nil => simp [refs]
  | cons t ts ih =>
    rw [List.foldl_cons, ih]
    cases t with
    | declare ref line =>
      by_cases h : n.declared
      · simp [change, h]
      · have hdeclared : (Draft.declaredNode ref line).declared = true := rfl
        simp [refs, change, h, label_declaredNode, hdeclared]
    | adorn id shape classes line => rfl

theorem classes_foldl_change :
    (ts.foldl change n).classes = (ts.flatMap classes).foldl enter n.classes := by
  induction ts generalizing n with
  | nil => rfl
  | cons t ts ih =>
    rw [List.foldl_cons, ih, List.flatMap_cons, List.foldl_append]
    cases t with
    | declare ref line => by_cases h : n.declared <;> simp [change, h, classes]
    | adorn id shape classes line => rfl

theorem refs_filter (k : String) : refs (ts.filter (·.id == k)) = (refs ts).filter (·.id == k) := by
  induction ts with
  | nil => rfl
  | cons t ts ih =>
    cases t with
    | declare ref line => by_cases h : ref.id = k <;> simp [refs, h, ih]
    | adorn id shape classes line => by_cases h : id = k <;> simp [refs, h, ih]

theorem refs_append (us : List Touch) : refs (ts ++ us) = refs ts ++ refs us := by
  induction ts with
  | nil => rfl
  | cons t ts ih => cases t <;> simp [refs, ih]

end Touch

namespace Statement

/-! ## What the touches of a statement are -/

theorem map_id_touches (s : Statement) : s.touches.map Touch.id = s.mentioned := by
  cases s with
  | edge source target label arrow line =>
    have hend (ref : NodeRef) :
        (if ref.form.isSome then Touch.declare ref line else .adorn ref.id none [] line).id =
          ref.id := by
      split_ifs <;> rfl
    simp [touches, mentioned, hend]
  | assign ids name line => simp [touches, mentioned, Function.comp_def]
  | _ => rfl

theorem line_of_mem_touches {s : Statement} {t : Touch} (h : t ∈ s.touches) : t.line = s.line := by
  cases s with
  | node ref line =>
    obtain rfl := List.mem_singleton.mp h
    rfl
  | edge source target label arrow line =>
    obtain ⟨ref, -, rfl⟩ := List.mem_map.mp h
    split_ifs <;> rfl
  | classDef name styles line => cases h
  | assign ids name line =>
    obtain ⟨id, -, rfl⟩ := List.mem_map.mp h
    rfl
  | style id shape classes line =>
    obtain rfl := List.mem_singleton.mp h
    rfl

theorem refs_touches (s : Statement) : Touch.refs s.touches = s.declarations := by
  cases s with
  | edge source target label arrow line =>
    by_cases hsource : source.form.isSome <;> by_cases htarget : target.form.isSome <;>
      simp [touches, declarations, Touch.refs, hsource, htarget]
  | assign ids name line =>
    simp only [touches, declarations]
    induction ids with
    | nil => rfl
    | cons id rest ih => exact ih
  | _ => rfl

theorem refs_flatMap_touches (ss : List Statement) :
    Touch.refs (ss.flatMap touches) = ss.flatMap declarations := by
  induction ss with
  | nil => rfl
  | cons s ss ih => rw [List.flatMap_cons, List.flatMap_cons, Touch.refs_append, refs_touches, ih]

theorem flatMap_classes_touches (s : Statement) (k : String) :
    (s.touches.filter (·.id == k)).flatMap Touch.classes = s.classesFor k := by
  cases s with
  | edge source target label arrow line =>
    have hnone : ∀ t ∈ (Statement.edge source target label arrow line).touches, t.classes = [] := by
      intro t ht
      obtain ⟨ref, -, rfl⟩ := List.mem_map.mp ht
      split_ifs <;> rfl
    refine List.flatMap_eq_nil_iff.mpr fun t ht => hnone t ?_
    exact (List.mem_filter.mp ht).1
  | assign ids name line =>
    simp only [touches, classesFor]
    induction ids with
    | nil => rfl
    | cons id rest ih => by_cases h : id = k <;> simp [h, ih, Touch.classes]
  | node ref line => by_cases h : ref.id = k <;> simp [touches, classesFor, Touch.classes, h]
  | classDef name styles line => rfl
  | style id shape classes line =>
    by_cases h : id = k <;> simp [touches, classesFor, Touch.classes, h]

end Statement

namespace Draft

/-- A node of a draft is what the touches of its id make of a blank node. The blank node has the
line of the first statement that mentions the id. -/
theorem exists_touch_of_mem {limit : Limit} {ss : List Statement} {n : Node}
    (h : n ∈ (ofStatements limit ss).nodes) :
    ∃ (before : List Statement) (s : Statement) (after : List Statement) (t : Touch),
      ss = before ++ s :: after ∧ n.id ∈ s.mentioned ∧ (∀ u ∈ before, n.id ∉ u.mentioned) ∧
      t.id = n.id ∧ t.line = s.line ∧
      n = ((ss.flatMap Statement.touches).filter (·.id == n.id)).foldl Touch.change t.blank := by
  have hfound := node?_of_mem (nodup_ids limit ss) h
  rw [node?_ofStatements] at hfound
  obtain ⟨t, ht, hn⟩ := Option.map_eq_some_iff.mp hfound
  rw [List.find?_flatMap, List.findSome?_eq_some_iff] at ht
  obtain ⟨before, s, after, hss, hs, hbefore⟩ := ht
  have hid : t.id = n.id := by simpa using List.find?_some hs
  have hmem : t ∈ s.touches := List.mem_of_find?_eq_some hs
  refine ⟨before, s, after, t, hss, ?_, fun u hu hmentioned => ?_, hid,
    Statement.line_of_mem_touches hmem, hn.symm⟩
  · rw [← hid, ← Statement.map_id_touches]
    exact List.mem_map_of_mem hmem
  · rw [← Statement.map_id_touches] at hmentioned
    obtain ⟨t', ht', hsame⟩ := List.mem_map.mp hmentioned
    have hnone := List.find?_eq_none.mp (hbefore u hu) t' ht'
    simp [hsame] at hnone

theorem means_of_mem {limit : Limit} {ss : List Statement} {n : Node}
    (h : n ∈ (ofStatements limit ss).nodes) : n.Means ss := by
  obtain ⟨before, s, after, t, hss, hmentioned, hbefore, hid, hline, hn⟩ := exists_touch_of_mem h
  have hfirst : (Touch.refs ((ss.flatMap Statement.touches).filter (·.id == n.id))).head? =
      (ss.flatMap Statement.declarations).find? (·.id == n.id) := by
    rw [Touch.refs_filter, Statement.refs_flatMap_touches, List.head?_filter]
  have hclasses : ((ss.flatMap Statement.touches).filter (·.id == n.id)).flatMap Touch.classes =
      ss.flatMap (Statement.classesFor n.id) := by
    rw [List.filter_flatMap, List.flatMap_assoc]
    exact List.flatMap_congr fun s _ => Statement.flatMap_classes_touches s n.id
  constructor
  · refine ⟨before, s, after, hss, hmentioned, hbefore, ?_⟩
    rw [hn, Touch.line_foldl_change]
    exact hline
  · have hdeclared := congrArg Node.declared hn
    rw [Touch.declared_foldl_change, hfirst] at hdeclared
    rw [hdeclared]
    simp only [Touch.blank, Bool.false_or, List.find?_isSome, beq_iff_eq]
  · have hlabel := congrArg Node.label hn
    rw [Touch.label_foldl_change, hfirst] at hlabel
    rw [hlabel]
    cases (ss.flatMap Statement.declarations).find? (·.id == n.id) with
    | none => simpa [Touch.blank] using hid
    | some first => simp [Touch.blank]
  · have hgiven := congrArg Node.classes hn
    rw [Touch.classes_foldl_change, hclasses] at hgiven
    rw [hgiven, ← foldl_enter_nil]
    rfl

end Draft

namespace Diagram

theorem means_ofNodes (limit : Limit) (ss : List Statement) (id : String) (path : Option String) :
    (ofNodes id path (.ofStatements limit ss)).Means ss where
  ids := by rw [nodeIds_ofNodes, Draft.ids_ofStatements]
  nodes := by
    intro n hn
    obtain ⟨k, hk, rfl⟩ := List.mem_map.mp hn
    obtain ⟨hline, hdeclared, hlabel, hclasses⟩ := Draft.means_of_mem hk
    exact ⟨hline, hdeclared, hlabel, hclasses⟩
  edges := Draft.edges_ofStatements limit ss

/-- Where a node is mentioned, there are nodes, and no placeholder is needed. -/
theorem assemble_of_mentioned {ss : List Statement} (h : ∃ s ∈ ss, s.mentioned ≠ [])
    (options : ReadOptions)
    (id : String) (path : Option String) (startLine : Option Int) :
    (assemble options ss id path startLine).1 =
      some (ofNodes id path (.ofStatements options.labelLimit ss)) := by
  obtain ⟨s, hs, hmentioned⟩ := h
  obtain ⟨k, hk⟩ := List.exists_mem_of_ne_nil _ hmentioned
  have hids : k ∈ (Draft.ofStatements options.labelLimit ss).ids := by
    rw [Draft.ids_ofStatements, List.mem_eraseDups]
    exact List.mem_flatMap.mpr ⟨s, hs, hk⟩
  obtain ⟨-, hbuilt⟩ | ⟨hnone, -⟩ := assemble_cases options ss id path startLine
  · rw [hbuilt]
  · simp [Draft.ids, hnone] at hids

/-- Statements that mention a node are assembled into the diagram they describe, whatever their
order is. -/
theorem means_of_assemble {ss : List Statement} (h : ∃ s ∈ ss, s.mentioned ≠ [])
    (options : ReadOptions)
    (id : String) (path : Option String) (startLine : Option Int) :
    ∃ d, (assemble options ss id path startLine).1 = some d ∧ d.Means ss :=
  ⟨_, assemble_of_mentioned h options id path startLine,
    means_ofNodes options.labelLimit ss id path⟩

/-- A node that is mentioned, given a class, declared, styled and declared again. -/
def upgrade : List Statement :=
  [.edge ⟨"A", none⟩ ⟨"B", none⟩ "go" .labeled (some 2), .assign ["B", "A"] "core" (some 3),
   .node ⟨"B", some (.rectangle, "Second")⟩ (some 4),
   .style "B" (some "circle") ["x", "core"] (some 5),
   .edge ⟨"B", some (.rounded, "Third")⟩ ⟨"C", some (.rounded, "")⟩ "" .plain (some 6)]

def upgraded : List Node :=
  [{ id := "A", label := "A", classes := ["core"], isInitial := true, line := some 2,
     declared := false },
   { id := "B", label := "Second", shape := .circle, classes := ["core", "x"], isFinal := true,
     line := some 2 },
   { id := "C", label := "C", shape := .rounded, line := some 6 }]

theorem means_of_assemble_upgrade : ∃ d, (assemble {} upgrade "flow" none (some 1)).1 = some d ∧
    d.Means upgrade ∧ d.nodes = upgraded := by
  have hmentions : ∃ s ∈ upgrade, s.mentioned ≠ [] := by decide
  obtain ⟨d, hd, hmeans⟩ := means_of_assemble hmentions {} "flow" none (some 1)
  have hnodes : (assemble {} upgrade "flow" none (some 1)).1.map (·.nodes) = some upgraded := by
    decide +kernel
  rw [hd] at hnodes
  exact ⟨d, hd, hmeans, Option.some.inj hnodes⟩

end Diagram

end FlowMachine
