import FlowMachine.Diagram.Assembly
import FlowMachine.Proofs.Diagram.StateNames
import FlowMachine.Proofs.FirstPlaces

/-!
# What statements do to a draft

Each operation on a draft is described three times: by the ids it leaves, by the edges it leaves,
and by what it does to a property of single nodes. A statement enters the ids it mentions and
appends the edge it draws; every other change stays inside one node. Findings play no part here.
-/
namespace FlowMachine

/-- The edge that a statement draws, if it draws one. -/
def Statement.drawn : Statement → List Edge
  | .edge source target label _ line => [.ofLabel source.id target.id label line]
  | _ => []

theorem Statement.mentioned_of_drawn {s : Statement} {e : Edge} (h : e ∈ s.drawn) :
    e.source ∈ s.mentioned ∧ e.target ∈ s.mentioned := by
  cases s <;> simp_all [drawn, mentioned, Edge.ofLabel]

theorem Node.withClass_eq (n : Node) (name : String) :
    n.withClass name = { n with classes := enter n.classes name } := by
  unfold Node.withClass enter
  split <;> rfl

theorem Node.foldl_withClass (names : List String) (n : Node) :
    names.foldl Node.withClass n = { n with classes := names.foldl enter n.classes } := by
  induction names generalizing n with
  | nil => rfl
  | cons name names ih => rw [List.foldl_cons, ih, withClass_eq, List.foldl_cons]

namespace Draft

/-- The ids of the nodes, in order. -/
def ids (g : Draft) : List String := g.nodes.map (·.id)

theorem node?_eq_none {g : Draft} {id : String} : g.node? id = none ↔ id ∉ g.ids := by
  simp [node?, ids]

theorem id_of_node? {g : Draft} {k : String} {n : Node} (h : g.node? k = some n) : n.id = k := by
  simpa using List.find?_some h

theorem mem_ids_of_node? {g : Draft} {id : String} {n : Node} (h : g.node? id = some n) :
    id ∈ g.ids := by
  by_contra hid
  simp [node?_eq_none.mpr hid] at h

/-- Ids are distinct, so a node is found under its own id. -/
theorem node?_of_mem {g : Draft} (hnodup : g.ids.Nodup) {n : Node} (h : n ∈ g.nodes) :
    g.node? n.id = some n := by
  cases hfound : g.node? n.id with
  | none => exact absurd (List.mem_map_of_mem h) (node?_eq_none.mp hfound)
  | some k =>
    have hmem : k ∈ g.nodes := List.mem_of_find?_eq_some hfound
    exact congrArg some (List.inj_on_of_nodup_map hnodup hmem h (id_of_node? hfound))

@[simp] theorem ids_report (g : Draft) (fs : List Finding) : (g.report fs).ids = g.ids := rfl

theorem ids_modify (g : Draft) {id : String} {f : Node → Node}
    (hf : ∀ n, n.id = id → (f n).id = id) :
    (g.modify id f).ids = g.ids := by
  simp only [modify, ids, List.map_map]
  refine List.map_congr_left fun n _ => ?_
  by_cases hn : n.id = id
  · simp [hn, hf n hn]
  · simp [hn]

@[simp] theorem ids_mention (g : Draft) (id : String) (line : Option Int) :
    (g.mention id line).ids = enter g.ids id := by
  unfold mention
  split
  · rename_i hn
    rw [enter_of_mem (mem_ids_of_node? hn)]
  · rename_i hn
    rw [enter_of_not_mem (node?_eq_none.mp hn)]
    simp [ids]

@[simp] theorem ids_declare (limit : Limit) (g : Draft) (ref : NodeRef) (line : Option Int) :
    (g.declare limit ref line).ids = enter g.ids ref.id := by
  unfold declare
  dsimp only
  split
  · rename_i hn
    rw [enter_of_not_mem (node?_eq_none.mp hn)]
    simp [ids, declaredNode]
  · rename_i old hn
    rw [enter_of_mem (mem_ids_of_node? hn)]
    split_ifs
    · rfl
    · rfl
    · rw [ids_report]
      exact ids_modify g fun _ _ => rfl

@[simp] theorem ids_endpoint (limit : Limit) (g : Draft) (ref : NodeRef) (line : Option Int) :
    (g.endpoint limit ref line).ids = enter g.ids ref.id := by
  unfold endpoint
  split <;> simp

theorem ids_connect (limit : Limit) (g : Draft) (source target : NodeRef) (label : String)
    (line : Option Int) :
    (g.connect limit source target label line).ids = enter (enter g.ids source.id) target.id := by
  rw [← ids_endpoint limit g source line, ← ids_endpoint limit _ target line]
  rfl

theorem id_withClass (n : Node) (name : String) : (n.withClass name).id = n.id := by
  rw [Node.withClass_eq]

theorem id_foldl_withClass (names : List String) (n : Node) :
    (names.foldl Node.withClass n).id = n.id := by
  rw [Node.foldl_withClass]

theorem ids_classify (line : Option Int) (name : String) (g : Draft) (id : String) :
    (g.classify line name id).ids = enter g.ids id := by
  unfold classify
  rw [ids_modify _ fun n hn => by rw [id_withClass, hn], ids_mention]

theorem ids_restyle (g : Draft) (id : String) (shape : Option String) (classes : List String)
    (line : Option Int) : (g.restyle id shape classes line).ids = enter g.ids id := by
  unfold restyle
  dsimp only
  rw [ids_modify _ fun n hn => by rw [id_foldl_withClass, hn]]
  split
  · rw [ids_mention]
  · split
    · rw [ids_report, ids_mention]
    · rw [ids_modify, ids_mention]
      exact fun n hn => hn

/-- A statement enters the ids it mentions. -/
theorem ids_apply (limit : Limit) (g : Draft) (s : Statement) :
    (g.apply limit s).ids = s.mentioned.foldl enter g.ids := by
  cases s with
  | node ref line => exact ids_declare limit g ref line
  | edge source target label arrow line => exact ids_connect limit g source target label line
  | classDef name styles line => rfl
  | style id shape classes line => exact ids_restyle g id shape classes line
  | assign ids name line =>
    simp only [apply, Statement.mentioned]
    induction ids generalizing g with
    | nil => rfl
    | cons id rest ih => rw [List.foldl_cons, List.foldl_cons, ih, ids_classify]

theorem ids_foldl_apply (limit : Limit) (ss : List Statement) (g : Draft) :
    (ss.foldl (apply limit) g).ids = (ss.flatMap Statement.mentioned).foldl enter g.ids := by
  induction ss generalizing g with
  | nil => rfl
  | cons s ss ih => rw [List.foldl_cons, ih, ids_apply, List.flatMap_cons, List.foldl_append]

/-- The nodes stand in the order of their first mention. -/
theorem ids_ofStatements (limit : Limit) (ss : List Statement) :
    (ofStatements limit ss).ids = (ss.flatMap Statement.mentioned).eraseDups := by
  rw [← foldl_enter_nil]
  exact ids_foldl_apply limit ss {}

theorem nodup_ids (limit : Limit) (ss : List Statement) : (ofStatements limit ss).ids.Nodup := by
  rw [ids_ofStatements]
  exact nodup_eraseDups _

@[simp] theorem edges_mention (g : Draft) (id : String) (line : Option Int) :
    (g.mention id line).edges = g.edges := by
  unfold mention
  split <;> rfl

@[simp] theorem edges_declare (limit : Limit) (g : Draft) (ref : NodeRef) (line : Option Int) :
    (g.declare limit ref line).edges = g.edges := by
  unfold declare
  dsimp only
  split
  · rfl
  · split_ifs <;> rfl

@[simp] theorem edges_endpoint (limit : Limit) (g : Draft) (ref : NodeRef) (line : Option Int) :
    (g.endpoint limit ref line).edges = g.edges := by
  unfold endpoint
  split <;> simp

theorem edges_restyle (g : Draft) (id : String) (shape : Option String) (classes : List String)
    (line : Option Int) : (g.restyle id shape classes line).edges = g.edges := by
  rw [← edges_mention g id line]
  unfold restyle
  dsimp only [modify]
  split
  · rfl
  · split <;> rfl

/-- A statement appends the edge it draws. -/
theorem edges_apply (limit : Limit) (g : Draft) (s : Statement) :
    (g.apply limit s).edges = g.edges ++ s.drawn := by
  cases s with
  | node ref line => simp [apply, Statement.drawn]
  | edge source target label arrow line => simp [apply, connect, Statement.drawn]
  | classDef name styles line => simp [apply, Statement.drawn]
  | style id shape classes line => simp [apply, Statement.drawn, edges_restyle]
  | assign ids name line =>
    simp only [apply, Statement.drawn, List.append_nil]
    induction ids generalizing g with
    | nil => rfl
    | cons id rest ih =>
      rw [List.foldl_cons, ih]
      exact edges_mention g id line

theorem edges_foldl_apply (limit : Limit) (ss : List Statement) (g : Draft) :
    (ss.foldl (apply limit) g).edges = g.edges ++ ss.flatMap Statement.drawn := by
  induction ss generalizing g with
  | nil => simp
  | cons s ss ih => rw [List.foldl_cons, ih, edges_apply, List.flatMap_cons, List.append_assoc]

/-- The edges stand in the order in which they are drawn. -/
theorem edges_ofStatements (limit : Limit) (ss : List Statement) :
    (ofStatements limit ss).edges = ss.flatMap Statement.drawn := by
  simp [ofStatements, edges_foldl_apply]

/-- No edge of a draft ends in the open. -/
theorem ids_of_edge {limit : Limit} {ss : List Statement} {e : Edge}
    (h : e ∈ (ofStatements limit ss).edges) :
    e.source ∈ (ofStatements limit ss).ids ∧ e.target ∈ (ofStatements limit ss).ids := by
  rw [edges_ofStatements] at h
  obtain ⟨s, hs, he⟩ := List.mem_flatMap.mp h
  obtain ⟨hsource, htarget⟩ := Statement.mentioned_of_drawn he
  simp only [ids_ofStatements, List.mem_eraseDups, List.mem_flatMap]
  exact ⟨⟨s, hs, hsource⟩, ⟨s, hs, htarget⟩⟩

section Nodes

variable {P : Node → Prop} {g : Draft}

theorem forall_modify {id : String} {f : Node → Node} (hf : ∀ n, P n → P (f n))
    (h : ∀ n ∈ g.nodes, P n) : ∀ n ∈ (g.modify id f).nodes, P n := by
  intro n hn
  obtain ⟨k, hk, rfl⟩ := List.mem_map.mp hn
  split
  · exact hf k (h k hk)
  · exact h k hk

theorem forall_mention {id : String} {line : Option Int}
    (hnew : P { id, label := id, line, declared := false }) (h : ∀ n ∈ g.nodes, P n) :
    ∀ n ∈ (g.mention id line).nodes, P n := by
  unfold mention
  split
  · exact h
  · intro n hn
    rcases List.mem_append.mp hn with old | new
    · exact h n old
    · rwa [List.mem_singleton.mp new]

theorem forall_declare {limit : Limit} {ref : NodeRef} {line : Option Int}
    (hnew : P (declaredNode ref line))
    (hold : ∀ n, P n → P { declaredNode ref line with classes := n.classes, line := n.line })
    (h : ∀ n ∈ g.nodes, P n) : ∀ n ∈ (g.declare limit ref line).nodes, P n := by
  unfold declare
  dsimp only
  split
  · intro n hn
    rcases List.mem_append.mp hn with old | new
    · exact h n old
    · rwa [List.mem_singleton.mp new]
  · split_ifs
    · exact h
    · exact h
    · exact forall_modify hold h

end Nodes

theorem nodup_withClass {n : Node} (h : n.classes.Nodup) (name : String) :
    (n.withClass name).classes.Nodup := by
  rw [Node.withClass_eq]
  exact nodup_enter h name

theorem nodup_foldl_withClass (names : List String) {n : Node} (h : n.classes.Nodup) :
    (names.foldl Node.withClass n).classes.Nodup := by
  rw [Node.foldl_withClass]
  exact nodup_foldl_enter names h

theorem nodup_classes_endpoint {limit : Limit} {g : Draft} {ref : NodeRef} {line : Option Int}
    (h : ∀ n ∈ g.nodes, n.classes.Nodup) :
    ∀ n ∈ (g.endpoint limit ref line).nodes, n.classes.Nodup := by
  unfold endpoint
  split
  · exact forall_declare List.nodup_nil (fun _ hn => hn) h
  · exact forall_mention List.nodup_nil h

theorem nodup_classes_restyle {g : Draft} {id : String} {shape : Option String}
    {classes : List String} {line : Option Int} (h : ∀ n ∈ g.nodes, n.classes.Nodup) :
    ∀ n ∈ (g.restyle id shape classes line).nodes, n.classes.Nodup := by
  have hm : ∀ n ∈ (g.mention id line).nodes, n.classes.Nodup := forall_mention List.nodup_nil h
  unfold restyle
  refine forall_modify (fun n hn => nodup_foldl_withClass classes hn) ?_
  split
  · exact hm
  · split
    · exact hm
    · exact forall_modify (fun n hn => hn) hm

/-- A statement gives no node a class that it has. -/
theorem nodup_classes_apply (limit : Limit) {g : Draft} (h : ∀ n ∈ g.nodes, n.classes.Nodup)
    (s : Statement) : ∀ n ∈ (g.apply limit s).nodes, n.classes.Nodup := by
  cases s with
  | node ref line => exact forall_declare List.nodup_nil (fun _ hn => hn) h
  | edge source target label arrow line =>
    exact nodup_classes_endpoint (nodup_classes_endpoint h)
  | classDef name styles line => exact h
  | style id shape classes line => exact nodup_classes_restyle h
  | assign ids name line =>
    simp only [apply]
    induction ids generalizing g with
    | nil => exact h
    | cons id rest ih =>
      refine ih (forall_modify (fun n hn => nodup_withClass hn name) ?_)
      exact forall_mention List.nodup_nil h

theorem nodup_classes_ofStatements (limit : Limit) (ss : List Statement) :
    ∀ n ∈ (ofStatements limit ss).nodes, n.classes.Nodup := by
  have run : ∀ (ss : List Statement) (g : Draft), (∀ n ∈ g.nodes, n.classes.Nodup) →
      ∀ n ∈ (ss.foldl (apply limit) g).nodes, n.classes.Nodup := by
    intro ss
    induction ss with
    | nil => intro g h; exact h
    | cons s ss ih => intro g h; exact ih _ (nodup_classes_apply limit h s)
  exact run ss {} (by simp)

end Draft

end FlowMachine
