import FlowMachine.Proofs.Diagram.Assembly

/-!
# Nodes under statements

A statement touches nodes one after the other: it declares a node, or mentions one and may give it a
shape and classes. A touch changes its own node and leaves the others alone, so the node of an id is
what the touches of that id make of a blank node, which stands where the first of them is.
-/
namespace FlowMachine

/-- What a statement does to one node. -/
inductive Touch where
  | declare (ref : NodeRef) (line : Option Int)
  | adorn (id : String) (shape : Option Shape) (classes : List String) (line : Option Int)

namespace Touch

def id : Touch → String
  | .declare ref _ => ref.id
  | .adorn id _ _ _ => id

def line : Touch → Option Int
  | .declare _ line => line
  | .adorn _ _ _ line => line

def classes : Touch → List String
  | .declare _ _ => []
  | .adorn _ _ classes _ => classes

/-- The touch gives its node the shape of a circle and declares nothing. -/
def rounds : Touch → Bool
  | .declare _ _ => false
  | .adorn _ shape _ _ => shape == some .circle

/-- The mentions by which touches declare nodes, in order. -/
def refs : List Touch → List NodeRef
  | [] => []
  | .declare ref _ :: ts => ref :: refs ts
  | .adorn _ _ _ _ :: ts => refs ts

/-- The node that a first touch starts from. -/
def blank (t : Touch) : Node := { id := t.id, label := t.id, line := t.line, declared := false }

/-- What a touch makes of its node. A node is declared once; it keeps its classes and its line
then. -/
def change (n : Node) : Touch → Node
  | .declare ref line =>
    if n.declared then n
    else { Draft.declaredNode ref line with classes := n.classes, line := n.line }
  | .adorn _ shape classes _ =>
    { n with
      shape := shape.getD n.shape
      isFinal := n.isFinal || shape == some .circle
      classes := classes.foldl enter n.classes }

/-- What becomes of the node of an id, if there is one, by a touch. -/
def meet (k : String) (o : Option Node) (t : Touch) : Option Node :=
  if t.id = k then some (change (o.getD t.blank) t) else o

@[simp] theorem id_declare (ref : NodeRef) (line : Option Int) :
    (declare ref line).id = ref.id := rfl

@[simp] theorem id_adorn (k : String) (shape : Option Shape) (classes : List String)
    (line : Option Int) :
    (adorn k shape classes line).id = k := rfl

@[simp] theorem change_adorn_nil (n : Node) (k : String) (line : Option Int) :
    change n (.adorn k none [] line) = n := by
  simp [change]

theorem meet_self (o : Option Node) (t : Touch) :
    meet t.id o t = some (change (o.getD t.blank) t) :=
  if_pos rfl

theorem meet_of_ne {k : String} {t : Touch} (h : t.id ≠ k) (o : Option Node) : meet k o t = o :=
  if_neg h

theorem foldl_meet_some (k : String) (ts : List Touch) (n : Node) :
    ts.foldl (meet k) (some n) = some ((ts.filter (·.id == k)).foldl change n) := by
  induction ts generalizing n with
  | nil => rfl
  | cons t ts ih =>
    by_cases hid : t.id = k
    · simp [meet, hid, ih]
    · simp [meet, hid, ih]

/-- The first touch of an id brings its node about, and the later ones change it. -/
theorem foldl_meet_none (k : String) (ts : List Touch) :
    ts.foldl (meet k) none =
      (ts.find? (·.id == k)).map fun t => (ts.filter (·.id == k)).foldl change t.blank := by
  induction ts with
  | nil => rfl
  | cons t ts ih =>
    by_cases hid : t.id = k
    · simp [meet, hid, foldl_meet_some]
    · simp [meet, hid, ih]

end Touch

/-- The touches of a statement, in order. A mention that gives a node neither form nor shape adorns
it with nothing. -/
def Statement.touches : Statement → List Touch
  | .node ref line => [.declare ref line]
  | .edge source target _ _ line => [source, target].map fun ref =>
    if ref.form.isSome then .declare ref line else .adorn ref.id none [] line
  | .classDef _ _ _ => []
  | .assign ids name line => ids.map fun id => .adorn id none [name] line
  | .style id shape classes line => [.adorn id (shape.bind Shape.ofDirective?) classes line]

namespace Draft

/-! ## A touch reaches one node -/

/-- Changing the node of an id changes what is found there. -/
theorem node?_modify (g : Draft) {id : String} {f : Node → Node}
    (hf : ∀ n, n.id = id → (f n).id = id)
    (k : String) : (g.modify id f).node? k = if id = k then (g.node? k).map f else g.node? k := by
  have hsame : ((fun n : Node => n.id == k) ∘ fun n => if n.id == id then f n else n) =
      (·.id == k) := by
    funext n
    by_cases hn : n.id = id
    · simp [hn, hf n hn]
    · simp [hn]
  have hmap : (g.modify id f).node? k = (g.node? k).map fun n => if n.id == id then f n else n := by
    simp only [modify, node?, List.find?_map, hsame]
  rw [hmap]
  cases hfound : g.node? k with
  | none => simp
  | some n =>
    have hid := id_of_node? hfound
    by_cases hk : id = k
    · simp [hid, hk]
    · simp [hid, hk, Ne.symm hk]

@[simp] theorem node?_report (g : Draft) (fs : List Finding) (k : String) :
    (g.report fs).node? k = g.node? k := rfl

theorem node?_append (g : Draft) (n : Node) (fs : List Finding) (k : String) :
    ({ g with nodes := g.nodes ++ [n], findings := fs } : Draft).node? k =
      (g.node? k).or (if n.id = k then some n else none) := by
  simp [node?, List.find?_append, List.find?_singleton]

theorem node?_mention (g : Draft) (id : String) (line : Option Int) (k : String) :
    (g.mention id line).node? k = Touch.meet k (g.node? k) (.adorn id none [] line) := by
  rw [Touch.meet, Touch.change_adorn_nil]
  unfold mention
  by_cases hk : id = k
  · subst hk
    split
    · rename_i hn
      simp [hn, Touch.id]
    · rename_i hn
      rw [node?_append]
      simp [hn, Touch.id, Touch.blank, Touch.line]
  · split
    · simp [hk, Touch.id]
    · rw [node?_append]
      simp [hk, Touch.id]

theorem node?_declare (limit : Limit) (g : Draft) (ref : NodeRef) (line : Option Int) (k : String) :
    (g.declare limit ref line).node? k = Touch.meet k (g.node? k) (.declare ref line) := by
  have hid : ∀ n : Node, n.id = ref.id →
      ({ declaredNode ref line with classes := n.classes, line := n.line } : Node).id = ref.id :=
    fun _ _ => rfl
  unfold declare
  dsimp only
  by_cases hk : ref.id = k
  · subst hk
    rw [← Touch.id_declare ref line, Touch.meet_self, Touch.id_declare]
    split
    · rename_i hn
      rw [node?_append]
      simp [hn, Touch.change, Touch.blank, Touch.line, declaredNode]
    · rename_i n hn
      split_ifs with hdeclared
      · simp [hn, Touch.change, hdeclared]
      · simp [hn, Touch.change, hdeclared]
      · rw [node?_report, node?_modify g hid]
        simp [hn, Touch.change, hdeclared]
  · rw [Touch.meet_of_ne (show (Touch.declare ref line).id ≠ k from hk)]
    split
    · rw [node?_append]
      simp [declaredNode, hk]
    · split_ifs
      · rfl
      · rfl
      · rw [node?_report, node?_modify g hid, if_neg hk]

theorem node?_endpoint (limit : Limit) (g : Draft) (ref : NodeRef) (line : Option Int)
    (k : String) :
    (g.endpoint limit ref line).node? k = Touch.meet k (g.node? k)
      (if ref.form.isSome then .declare ref line else .adorn ref.id none [] line) := by
  unfold endpoint
  split_ifs
  · exact node?_declare limit g ref line k
  · exact node?_mention g ref.id line k

/-- A mention of a node and what is done to it after that are one touch. -/
theorem node?_modify_mention (g : Draft) {id : String} {line : Option Int} {f : Node → Node}
    {shape : Option Shape} {classes : List String}
    (hf : ∀ n, f n = Touch.change n (.adorn id shape classes line)) (k : String) :
    ((g.mention id line).modify id f).node? k =
      Touch.meet k (g.node? k) (.adorn id shape classes line) := by
  have hid : ∀ n, n.id = id → (f n).id = id := by
    intro n hn
    rw [hf]
    exact hn
  rw [node?_modify _ hid, node?_mention]
  by_cases hk : id = k
  · subst hk
    simp [Touch.meet, hf, Touch.blank, Touch.line]
  · simp [Touch.meet, hk]

theorem node?_classify (line : Option Int) (name : String) (g : Draft) (id k : String) :
    (g.classify line name id).node? k = Touch.meet k (g.node? k) (.adorn id none [name] line) := by
  refine node?_modify_mention g (fun n => ?_) k
  simp [Node.withClass_eq, Touch.change]

theorem modify_modify (g : Draft) {id : String} {f f' : Node → Node}
    (hf : ∀ n, n.id = id → (f n).id = id) :
    (g.modify id f).modify id f' = g.modify id fun n => f' (f n) := by
  have hnodes : (g.nodes.map fun n => if n.id == id then f n else n).map
      (fun n => if n.id == id then f' n else n) =
      g.nodes.map fun n => if n.id == id then f' (f n) else n := by
    rw [List.map_map]
    refine List.map_congr_left fun n _ => ?_
    by_cases hn : n.id = id
    · simp [hn, hf n hn]
    · simp [hn]
  simp only [modify, hnodes]

theorem node?_restyle (g : Draft) (id : String) (shape : Option String) (classes : List String)
    (line : Option Int) (k : String) : (g.restyle id shape classes line).node? k =
      Touch.meet k (g.node? k) (.adorn id (shape.bind Shape.ofDirective?) classes line) := by
  have hplain (hnone : shape.bind Shape.ofDirective? = none) :
      ((g.mention id line).modify id fun n => classes.foldl Node.withClass n).node? k =
        Touch.meet k (g.node? k) (.adorn id (shape.bind Shape.ofDirective?) classes line) := by
    refine node?_modify_mention g (fun n => ?_) k
    simp [hnone, Node.foldl_withClass, Touch.change]
  cases shape with
  | none => exact hplain rfl
  | some name =>
    cases hshape : Shape.ofDirective? name with
    | none =>
      simp only [restyle, hshape]
      exact hplain hshape
    | some found =>
      have hid : ∀ n : Node, n.id = id →
          ({ n with shape := found, isFinal := n.isFinal || found == Shape.circle } : Node).id =
            id :=
        fun _ h => h
      simp only [restyle, hshape]
      rw [modify_modify _ hid]
      refine node?_modify_mention g (fun n => ?_) k
      simp [hshape, Node.foldl_withClass, Touch.change]

/-- A statement touches nodes in order, and what is found under an id is changed by each touch of
it. -/
theorem node?_apply (limit : Limit) (g : Draft) (s : Statement) (k : String) :
    (g.apply limit s).node? k = s.touches.foldl (Touch.meet k) (g.node? k) := by
  cases s with
  | node ref line => exact node?_declare limit g ref line k
  | edge source target label arrow line =>
    show ((g.endpoint limit source line).endpoint limit target line).node? k = _
    rw [node?_endpoint, node?_endpoint]
    rfl
  | classDef name styles line => rfl
  | style id shape classes line => exact node?_restyle g id shape classes line k
  | assign ids name line =>
    simp only [apply, Statement.touches]
    induction ids generalizing g with
    | nil => rfl
    | cons id rest ih => rw [List.foldl_cons, ih, node?_classify, List.map_cons, List.foldl_cons]

theorem node?_foldl_apply (limit : Limit) (ss : List Statement) (g : Draft) (k : String) :
    (ss.foldl (apply limit) g).node? k =
      (ss.flatMap Statement.touches).foldl (Touch.meet k) (g.node? k) := by
  induction ss generalizing g with
  | nil => rfl
  | cons s ss ih => rw [List.foldl_cons, ih, node?_apply, List.flatMap_cons, List.foldl_append]

/-- The node of an id is what the touches of the id make of a blank node at the first of them. -/
theorem node?_ofStatements (limit : Limit) (ss : List Statement) (k : String) :
    (ofStatements limit ss).node? k =
      ((ss.flatMap Statement.touches).find? (·.id == k)).map fun t =>
        ((ss.flatMap Statement.touches).filter (·.id == k)).foldl Touch.change t.blank := by
  rw [← Touch.foldl_meet_none]
  exact node?_foldl_apply limit ss {} k

end Draft

end FlowMachine
