import FlowMachine.Diagram.Assembly
import FlowMachine.Proofs.Text.Pieces
import Mathlib.Data.List.Forall2
import Mathlib.Data.String.Basic
import Mathlib.Order.Lattice

/-!
# The category that most classes name

The classes of all nodes are counted for each category. The category of a diagram is the only one
that no other category beats, neither by a greater count nor, at an equal count, by its place in the
order. Counts do not depend on the order of the nodes or of their classes, so neither does the
category.
-/
namespace FlowMachine

/-! ## Classes that name a category -/

namespace Category

theorem ofName?_eq_some_iff {s : String} {c : Category} : ofName? s = some c ↔ s = c.name := by
  constructor
  · intro h
    have hname := List.find?_some h
    exact (beq_iff_eq.mp hname).symm
  · rintro rfl
    cases c <;> rfl

/-- A class names a category by the name or by the tag; blanks around it and its case do not
count. -/
def IsNamedBy (c : Category) (text : String) : Prop :=
  let word := String.ofList (Text.lowerChars (Text.trim text.toList))
  word = c.name ∨ word = c.tag

instance (c : Category) (text : String) : Decidable (c.IsNamedBy text) :=
  inferInstanceAs (Decidable (_ ∨ _))

theorem ofTag?_eq_some_iff {text : String} {c : Category} :
    ofTag? text = some c ↔ c.IsNamedBy text := by
  have hplain : Text.stripEnd? "-machine".toList c.name.toList = none := by cases c <;> decide
  have htag : c.tag.toList = c.name.toList ++ "-machine".toList := String.toList_append
  rw [ofTag?, ofName?_eq_some_iff, IsNamedBy, String.ofList_eq, String.ofList_eq,
    String.ofList_eq, htag]
  exact Text.getD_stripEnd?_eq_iff hplain

/-- The place of a category among those that are named equally often. -/
def rank : Category → Nat
  | .info => 0
  | .agent => 1
  | .account => 2
  | .user => 3
  | .core => 4

theorem rank_injective : Function.Injective rank := by
  intro c d h
  cases c <;> cases d <;> simp_all [rank]

theorem mem_priority (c : Category) : c ∈ priority := by cases c <;> decide

theorem pairwise_priority : priority.Pairwise (rank · ≤ rank ·) := by decide

/-- The priority is searched from the front, so what is found stands in front of all that fits. -/
theorem rank_le_of_find? {p : Category → Bool} {c d : Category} (h : priority.find? p = some c)
    (hd : p d = true) :
    c.rank ≤ d.rank := by
  obtain ⟨-, front, behind, hsplit, hfront⟩ := List.find?_eq_some_iff_append.mp h
  have hsorted := pairwise_priority
  have hmem := mem_priority d
  rw [hsplit] at hsorted hmem
  obtain ⟨-, hbehind, -⟩ := List.pairwise_append.mp hsorted
  rcases List.mem_append.mp hmem with hmem | hmem
  · exact absurd hd (by simpa using hfront d hmem)
  · rcases List.mem_cons.mp hmem with rfl | hmem
    · exact le_rfl
    · exact (List.pairwise_cons.mp hbehind).1 d hmem

end Category

namespace Diagram

variable {nodes nodes' : List Node}

/-! ## Counts -/

/-- How many classes of nodes name a category. -/
def namings (nodes : List Node) (c : Category) : Nat :=
  (nodes.flatMap (·.classes)).countP (c.IsNamedBy ·)

theorem tally_eq_namings (nodes : List Node) (c : Category) : tally nodes c = namings nodes c := by
  refine List.countP_congr fun text _ => ?_
  rw [beq_iff_eq, decide_eq_true_iff, Category.ofTag?_eq_some_iff]

theorem namings_pos_iff {c : Category} :
    0 < namings nodes c ↔ ∃ n ∈ nodes, ∃ text ∈ n.classes, c.IsNamedBy text := by
  rw [namings, List.countP_pos_iff]
  simp only [List.mem_flatMap, decide_eq_true_iff]
  constructor
  · rintro ⟨text, ⟨n, hn, htext⟩, hnamed⟩
    exact ⟨n, hn, text, htext, hnamed⟩
  · rintro ⟨n, hn, text, htext, hnamed⟩
    exact ⟨text, ⟨n, hn, htext⟩, hnamed⟩

/-- The greatest count is that of some category. -/
theorem exists_greatest (nodes : List Node) :
    ∃ c, (Category.all.map (tally nodes)).foldl max 0 = namings nodes c ∧
    ∀ d, namings nodes d ≤ namings nodes c := by
  have hsome : Category.all.map (tally nodes) ≠ [] := by simp [Category.all]
  rw [List.foldl_max_eq_max hsome, Nat.zero_max]
  obtain ⟨c, -, hc⟩ := List.mem_map.mp (List.max_mem hsome)
  refine ⟨c, by rw [← hc, tally_eq_namings], fun d => ?_⟩
  have hd : tally nodes d ∈ Category.all.map (tally nodes) :=
    List.mem_map_of_mem (by cases d <;> decide)
  rw [← tally_eq_namings, ← tally_eq_namings, hc]
  exact List.le_max_of_mem hd

/-! ## The winner -/

/-- The category is named, no other is named more often, and those that are named as often stand
behind it. -/
structure Wins (nodes : List Node) (c : Category) : Prop where
  named : 0 < namings nodes c
  most : ∀ d, namings nodes d ≤ namings nodes c
  first : ∀ d, namings nodes d = namings nodes c → c.rank ≤ d.rank

theorem Wins.unique {c d : Category} (hc : Wins nodes c) (hd : Wins nodes d) : c = d := by
  have hcount : namings nodes c = namings nodes d := le_antisymm (hd.most c) (hc.most d)
  exact Category.rank_injective (le_antisymm (hc.first d hcount.symm) (hd.first c hcount))

theorem majorityCategory_of_unnamed (h : ∀ c, namings nodes c = 0) :
    majorityCategory nodes = .user := by
  obtain ⟨c, hbest, -⟩ := exists_greatest nodes
  rw [majorityCategory, hbest, h c]
  rfl

/-- The search through the priority finds a category, and it wins. -/
theorem wins_majorityCategory {c : Category} (h : 0 < namings nodes c) :
    Wins nodes (majorityCategory nodes) := by
  obtain ⟨top, hbest, hmost⟩ := exists_greatest nodes
  have hpos : 0 < namings nodes top := h.trans_le (hmost c)
  rw [majorityCategory, hbest, if_neg (by simpa using hpos.ne')]
  cases hfound : Category.priority.find? (tally nodes · == namings nodes top) with
  | none =>
    have htop := List.find?_eq_none.mp hfound top (Category.mem_priority top)
    exact absurd (beq_iff_eq.mpr (tally_eq_namings nodes top)) htop
  | some d =>
    have hfits := List.find?_some hfound
    rw [beq_iff_eq, tally_eq_namings] at hfits
    rw [Option.getD_some]
    refine ⟨?_, fun e => ?_, fun e he => Category.rank_le_of_find? hfound ?_⟩
    · rwa [hfits]
    · rw [hfits]
      exact hmost e
    · rw [beq_iff_eq, tally_eq_namings, he, hfits]

/-! ## Nodes in another order -/

/-- The nodes in another order, each with its classes in another order. -/
def Rearranged (nodes nodes' : List Node) : Prop :=
  ∃ moved, nodes.Perm moved ∧
    List.Forall₂ (fun n n' => ∃ classes, n.classes.Perm classes ∧ n' = { n with classes })
      moved nodes'

theorem Rearranged.flatMap_classes (h : Rearranged nodes nodes') :
    (nodes.flatMap (·.classes)).Perm (nodes'.flatMap (·.classes)) := by
  obtain ⟨moved, hperm, hclasses⟩ := h
  refine (hperm.flatMap_right _).trans ?_
  clear hperm
  induction hclasses with
  | nil => exact .refl _
  | cons hnode _ ih =>
    obtain ⟨classes, hnode, rfl⟩ := hnode
    exact hnode.append ih

theorem majorityCategory_of_rearranged (h : Rearranged nodes nodes') :
    majorityCategory nodes' = majorityCategory nodes := by
  have htally : tally nodes' = tally nodes := by
    funext c
    exact h.flatMap_classes.symm.countP_eq _
  rw [majorityCategory, majorityCategory, htally]

/-- Without a class that names a category the category is `user`, and otherwise it is the one that
wins. It is the same for the nodes in any order and their classes in any order. -/
theorem majorityCategory_settled (nodes : List Node) :
    ((∀ n ∈ nodes, ∀ text ∈ n.classes, ∀ c : Category, ¬ c.IsNamedBy text) ∧
      majorityCategory nodes = .user ∨
      (∃ n ∈ nodes, ∃ text ∈ n.classes, ∃ c : Category, c.IsNamedBy text) ∧
        ∀ c, majorityCategory nodes = c ↔ Wins nodes c) ∧
      ∀ nodes', Rearranged nodes nodes' → majorityCategory nodes' = majorityCategory nodes := by
  refine ⟨?_, fun nodes' => majorityCategory_of_rearranged⟩
  by_cases hnamed : ∃ n ∈ nodes, ∃ text ∈ n.classes, ∃ c : Category, c.IsNamedBy text
  · obtain ⟨n, hn, text, htext, c, hc⟩ := hnamed
    have hwins := wins_majorityCategory (namings_pos_iff.mpr ⟨n, hn, text, htext, hc⟩)
    refine .inr ⟨⟨n, hn, text, htext, c, hc⟩, fun d => ⟨?_, hwins.unique⟩⟩
    rintro rfl
    exact hwins
  · push Not at hnamed
    refine .inl ⟨hnamed, majorityCategory_of_unnamed fun c => ?_⟩
    refine Nat.eq_zero_of_not_pos fun hpos => ?_
    obtain ⟨n, hn, text, htext, hc⟩ := namings_pos_iff.mp hpos
    exact hnamed n hn text htext c hc

/-- Two classes each for `user` and for `agent`, in both spellings, and one for `core`. -/
def tiedNodes : List Node :=
  [{ id := "A", label := "A", classes := ["USER-machine", "error"] },
   { id := "B", label := "B", classes := ["core", " Agent "] },
   { id := "C", label := "C", classes := ["agent-machine", "user"] }]

/-- The tie goes to `agent`, also from behind. -/
theorem majorityCategory_settled_tied :
    Wins tiedNodes .agent ∧
      ∃ nodes', Rearranged tiedNodes nodes' ∧ nodes' ≠ tiedNodes ∧
      majorityCategory nodes' = .agent := by
  have hwins : Wins tiedNodes .agent := by
    refine ⟨by decide, fun d => ?_, fun d hd => ?_⟩
    · cases d <;> decide
    · revert hd
      cases d <;> decide
  have hback : Rearranged tiedNodes
      (tiedNodes.reverse.map fun n => { n with classes := n.classes.reverse }) := by
    refine ⟨tiedNodes.reverse, tiedNodes.reverse_perm.symm, ?_⟩
    exact List.forall₂_map_right_iff.mpr
      (List.forall₂_same.mpr fun n _ => ⟨_, n.classes.reverse_perm.symm, rfl⟩)
  obtain ⟨hpick, hsame⟩ := majorityCategory_settled tiedNodes
  refine ⟨hwins, _, hback, by decide, ?_⟩
  rw [hsame _ hback]
  obtain ⟨hnone, -⟩ | ⟨-, hiff⟩ := hpick
  · exact absurd (by decide) (hnone _ List.mem_cons_self "USER-machine" List.mem_cons_self .user)
  · exact (hiff .agent).mpr hwins

end Diagram

end FlowMachine
