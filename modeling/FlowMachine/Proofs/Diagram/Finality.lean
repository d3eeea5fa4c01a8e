import FlowMachine.Proofs.Diagram.Meaning

/-!
# Final nodes of statements

A node is final by its first declaration or by a directive that makes it a circle. A declaration
makes the node anew, so a directive counts only when no first declaration comes behind it.
-/
namespace FlowMachine

/-- A declaration makes its node final by a circle or by what its label says. -/
def NodeRef.Closes (r : NodeRef) : Prop :=
  r.shape = some .circle ∨ Label.isFinal r.shownLabel = true

namespace Statement

/-- The statement declares the node of an id. -/
def Declares (k : String) (s : Statement) : Prop := ∃ ref ∈ s.declarations, ref.id = k

/-- The statement is a directive that makes the node of an id a circle. -/
def Rounds (k : String) : Statement → Prop
  | .style id shape _ _ => id = k ∧ shape.bind Shape.ofDirective? = some .circle
  | _ => False

/-- A directive makes the node a circle, and the node is declared in front of it or not at all
behind it. -/
def RoundedIn (k : String) (ss : List Statement) : Prop :=
  ∃ before s after, ss = before ++ s :: after ∧ s.Rounds k ∧
    ((∃ t ∈ before, t.Declares k) ∨ ∀ t ∈ after, ¬ t.Declares k)

/-- The node is final by its first declaration or by a directive. -/
def FinalIn (k : String) (ss : List Statement) : Prop :=
  (∃ first, (ss.flatMap declarations).find? (·.id == k) = some first ∧ first.Closes) ∨
    RoundedIn k ss

end Statement

namespace Touch

variable {ts : List Touch} {n : Node}

theorem isFinal_declaredNode (ref : NodeRef) (line : Option Int) :
    (Draft.declaredNode ref line).isFinal = true ↔ ref.Closes := by
  have hlabel := label_declaredNode ref line
  unfold NodeRef.Closes
  rw [← hlabel]
  cases hshape : ref.shape <;> simp [Draft.declaredNode, hshape]

/-- Where nothing is declared for the first time, finality stays and circles add to it. -/
theorem isFinal_foldl_change (h : n.declared = true ∨ refs ts = []) :
    (ts.foldl change n).isFinal = (n.isFinal || ts.any rounds) := by
  induction ts generalizing n with
  | nil => simp
  | cons t ts ih =>
    cases t with
    | declare ref line =>
      have hn : n.declared = true := by simpa [refs] using h
      rw [List.foldl_cons, change, if_pos hn, ih (.inl hn)]
      simp [rounds]
    | adorn id shape classes line =>
      have hrest : (change n (.adorn id shape classes line)).declared = true ∨ refs ts = [] := h
      rw [List.foldl_cons, ih hrest]
      simp [change, rounds, Bool.or_assoc]

/-- A first declaration decides anew. -/
theorem isFinal_foldl_change_of_declares (hn : n.declared = false) {first : NodeRef}
    (hfirst : (refs ts).head? = some first) (hplain : ts.any rounds = false) :
    (ts.foldl change n).isFinal = true ↔ first.Closes := by
  induction ts generalizing n with
  | nil => cases hfirst
  | cons t ts ih =>
    have hrest : ts.any rounds = false := by simp_all
    cases t with
    | declare ref line =>
      obtain rfl : ref = first := by simpa [refs] using hfirst
      have hdeclared : (change n (.declare ref line)).declared = true := by
        simp [change, hn, Draft.declaredNode]
      rw [List.foldl_cons, isFinal_foldl_change (.inl hdeclared), hrest, Bool.or_false]
      simpa [change, hn] using isFinal_declaredNode ref line
    | adorn id shape classes line => exact ih hn hfirst hrest

end Touch

namespace Statement

variable {k : String} {s : Statement}

theorem declares_iff : s.Declares k ↔ ∃ first, s.declarations.find? (·.id == k) = some first := by
  rw [← Option.isSome_iff_exists, List.find?_isSome]
  simp [Declares]

theorem refs_eq_nil_iff : Touch.refs (s.touches.filter (·.id == k)) = [] ↔ ¬ s.Declares k := by
  rw [Touch.refs_filter, refs_touches]
  simp [Declares]

theorem any_rounds_iff : (s.touches.filter (·.id == k)).any Touch.rounds = true ↔ s.Rounds k := by
  have hnone (h : ∀ t ∈ s.touches, t.rounds = false) :
      (s.touches.filter (·.id == k)).any Touch.rounds = false :=
    List.any_eq_false.mpr fun t ht => by simp [h t (List.mem_filter.mp ht).1]
  cases s with
  | edge source target label arrow line =>
    rw [hnone]
    · simp [Rounds]
    · intro t ht
      obtain ⟨ref, -, rfl⟩ := List.mem_map.mp ht
      split_ifs <;> rfl
  | assign ids name line =>
    rw [hnone]
    · simp [Rounds]
    · intro t ht
      obtain ⟨id, -, rfl⟩ := List.mem_map.mp ht
      rfl
  | style id shape classes line => by_cases h : id = k <;> simp [touches, Touch.rounds, Rounds, h]
  | node ref line =>
    rw [hnone]
    · simp [Rounds]
    · simp [touches, Touch.rounds]
  | classDef name styles line => simp [touches, Rounds]

theorem not_rounds_of_declares (h : s.Declares k) : ¬ s.Rounds k := by
  cases s with
  | style id shape classes line => simp [Declares, declarations] at h
  | _ => exact not_false

/-- One more statement keeps what the directives in front of it did, unless it is the first
declaration. -/
theorem roundedIn_append_singleton {ss : List Statement} : RoundedIn k (ss ++ [s]) ↔
    s.Rounds k ∨ RoundedIn k ss ∧ (s.Declares k → ∃ t ∈ ss, t.Declares k) := by
  constructor
  · rintro ⟨before, u, after, hss, hrounds, hdeclared⟩
    obtain rfl | ⟨front, last, rfl⟩ := List.eq_nil_or_concat after
    · obtain ⟨-, hlast⟩ := List.append_inj' hss rfl
      obtain rfl : s = u := by simpa using hlast
      exact .inl hrounds
    · rw [List.concat_eq_append, ← List.cons_append, ← List.append_assoc] at hss
      obtain ⟨rfl, hlast⟩ := List.append_inj' hss rfl
      obtain rfl : s = last := by simpa using hlast
      refine .inr ⟨⟨before, u, front, rfl, hrounds, ?_⟩, fun hs => ?_⟩
      · exact hdeclared.imp_right fun hnone t ht => hnone t (by simp [ht])
      · rcases hdeclared with ⟨t, ht, hdeclares⟩ | hnone
        · exact ⟨t, by simp [ht], hdeclares⟩
        · exact absurd hs (hnone s (by simp))
  · rintro (hrounds | ⟨⟨before, u, after, rfl, hrounds, hdeclared⟩, hs⟩)
    · exact ⟨ss, s, [], rfl, hrounds, .inr (by simp)⟩
    · refine ⟨before, u, after ++ [s], by simp, hrounds, ?_⟩
      rcases hdeclared with hfront | hnone
      · exact .inl hfront
      · by_cases hdeclares : s.Declares k
        · obtain ⟨t, ht, hfirst⟩ := hs hdeclares
          rcases List.mem_append.mp ht with hbefore | hrest
          · exact .inl ⟨t, hbefore, hfirst⟩
          · rcases List.mem_cons.mp hrest with rfl | hafter
            · exact absurd hrounds (not_rounds_of_declares hfirst)
            · exact absurd hfirst (hnone t hafter)
        · refine .inr fun t ht => ?_
          rcases List.mem_append.mp ht with hafter | hlast
          · exact hnone t hafter
          · rwa [List.mem_singleton.mp hlast]

/-- The first declaration after one more statement. -/
theorem find?_declarations_append (ss : List Statement) (s : Statement) (k : String) :
    ((ss ++ [s]).flatMap declarations).find? (·.id == k) =
      ((ss.flatMap declarations).find? (·.id == k)).or (s.declarations.find? (·.id == k)) := by
  rw [List.flatMap_append, List.find?_append, List.flatMap_singleton]

theorem find?_declarations_eq_none {ss : List Statement} :
    (ss.flatMap declarations).find? (·.id == k) = none ↔ ∀ t ∈ ss, ¬ t.Declares k := by
  simp only [List.find?_eq_none, List.mem_flatMap, Declares, beq_iff_eq]
  grind

/-- The first declaration of a node decides anew whether it is final. -/
theorem finalIn_append_of_first {ss : List Statement} {first : NodeRef}
    (hnone : ∀ t ∈ ss, ¬ t.Declares k) (hfirst : s.declarations.find? (·.id == k) = some first) :
    FinalIn k (ss ++ [s]) ↔ first.Closes := by
  have hdeclares : s.Declares k := declares_iff.mpr ⟨first, hfirst⟩
  have hrounded : ¬ RoundedIn k (ss ++ [s]) := by
    rw [roundedIn_append_singleton, not_or, not_and]
    refine ⟨not_rounds_of_declares hdeclares, fun _ hkept => ?_⟩
    obtain ⟨t, ht, hdeclared⟩ := hkept hdeclares
    exact hnone t ht hdeclared
  rw [FinalIn, or_iff_left hrounded, find?_declarations_append,
    find?_declarations_eq_none.mpr hnone]
  simp [hfirst]

/-- Any other statement adds a circle or nothing. -/
theorem finalIn_append_of_kept {ss : List Statement} (h : s.Declares k → ∃ t ∈ ss, t.Declares k) :
    FinalIn k (ss ++ [s]) ↔ FinalIn k ss ∨ s.Rounds k := by
  have hsame : ((ss ++ [s]).flatMap declarations).find? (·.id == k) =
      (ss.flatMap declarations).find? (·.id == k) := by
    rw [find?_declarations_append]
    cases hfound : (ss.flatMap declarations).find? (·.id == k) with
    | some first => rfl
    | none =>
      have hother : ¬ s.Declares k := fun hs => by
        obtain ⟨t, ht, hdeclared⟩ := h hs
        exact find?_declarations_eq_none.mp hfound t ht hdeclared
      simpa [Declares] using hother
  rw [FinalIn, FinalIn, hsame, roundedIn_append_singleton, and_iff_left h]
  exact (or_congr_right or_comm).trans or_assoc.symm

/-- Whether a node is final, by induction on the statements: what the next statement does to the
mark depends on whether the node is declared by then. -/
theorem isFinal_iff_finalIn {n : Node} (hdeclared : n.declared = false) (hfinal : n.isFinal = false)
    (ss : List Statement) (k : String) :
    (((ss.flatMap touches).filter (·.id == k)).foldl Touch.change n).isFinal = true ↔
      FinalIn k ss := by
  induction ss using List.reverseRecOn with
  | nil => simp [hfinal, FinalIn, RoundedIn]
  | append_singleton ss s ih =>
    have hsofar : (((ss.flatMap touches).filter (·.id == k)).foldl Touch.change n).declared = true ↔
        ∃ t ∈ ss, t.Declares k := by
      rw [Touch.declared_foldl_change, hdeclared, Bool.false_or, Touch.refs_filter,
        refs_flatMap_touches,
        List.head?_filter, Option.isSome_iff_ne_none, ne_eq, find?_declarations_eq_none]
      push Not
      rfl
    have hhere : (Touch.refs (s.touches.filter (·.id == k))).head? =
        s.declarations.find? (·.id == k) := by
      rw [Touch.refs_filter, refs_touches, List.head?_filter]
    rw [List.flatMap_append, List.flatMap_singleton, List.filter_append, List.foldl_append]
    by_cases hkept : s.Declares k → ∃ t ∈ ss, t.Declares k
    · have hopen : (((ss.flatMap touches).filter (·.id == k)).foldl Touch.change n).declared =
          true ∨
          Touch.refs (s.touches.filter (·.id == k)) = [] := by
        rw [hsofar, refs_eq_nil_iff]
        exact or_not_of_imp hkept
      rw [finalIn_append_of_kept hkept, Touch.isFinal_foldl_change hopen, Bool.or_eq_true, ih,
        any_rounds_iff]
    · rw [Classical.not_imp, ← hsofar, Bool.not_eq_true] at hkept
      obtain ⟨hdeclares, hnotyet⟩ := hkept
      have hnone : ∀ t ∈ ss, ¬ t.Declares k := by
        intro t ht hdeclared
        rw [hsofar.mpr ⟨t, ht, hdeclared⟩] at hnotyet
        cases hnotyet
      have hplain : (s.touches.filter (·.id == k)).any Touch.rounds = false := by
        rw [← Bool.not_eq_true, any_rounds_iff]
        exact not_rounds_of_declares hdeclares
      obtain ⟨first, hfirst⟩ := declares_iff.mp hdeclares
      rw [finalIn_append_of_first hnone hfirst]
      exact Touch.isFinal_foldl_change_of_declares hnotyet (hhere.trans hfirst) hplain

theorem mentioned_of_mem_declarations {ref : NodeRef} (h : ref ∈ s.declarations) :
    ref.id ∈ s.mentioned := by
  cases s with
  | node own line => simp_all [declarations, mentioned]
  | edge source target label arrow line =>
    have hend := (List.mem_filter.mp h).1
    simp only [List.mem_cons, List.not_mem_nil, or_false] at hend
    rcases hend with rfl | rfl
    · exact List.mem_cons_self
    · exact List.mem_cons_of_mem _ List.mem_cons_self
  | _ => cases h

/-- A node is mentioned where it is declared or made a circle. -/
theorem mentioned_of_finalIn {ss : List Statement} (h : FinalIn k ss) :
    ∃ s ∈ ss, k ∈ s.mentioned := by
  obtain ⟨first, hfirst, -⟩ | ⟨before, s, after, rfl, hrounds, -⟩ := h
  · obtain ⟨s, hs, href⟩ := List.mem_flatMap.mp (List.mem_of_find?_eq_some hfirst)
    have hid : first.id = k := by simpa using List.find?_some hfirst
    exact ⟨s, hs, hid ▸ mentioned_of_mem_declarations href⟩
  · refine ⟨s, by simp, ?_⟩
    cases s with
    | style id shape classes line => simp [mentioned, hrounds.1]
    | _ => cases hrounds

end Statement

namespace Draft

theorem isFinal_of_mem {limit : Limit} {ss : List Statement} {n : Node}
    (h : n ∈ (ofStatements limit ss).nodes) : n.isFinal = true ↔ Statement.FinalIn n.id ss := by
  obtain ⟨-, -, -, t, -, -, -, -, -, hn⟩ := exists_touch_of_mem h
  have hfinal := congrArg Node.isFinal hn
  rw [hfinal]
  exact Statement.isFinal_iff_finalIn rfl rfl ss n.id

end Draft

namespace Diagram

/-- A node is final by its first declaration, or by a directive that no first declaration comes
behind. -/
theorem mem_finals_of_assemble {ss : List Statement} (h : ∃ s ∈ ss, s.mentioned ≠ [])
    (options : ReadOptions)
    (id : String) (path : Option String) (startLine : Option Int) :
    ∃ d, (assemble options ss id path startLine).1 = some d ∧
      ∀ k, k ∈ d.finals ↔ Statement.FinalIn k ss := by
  refine ⟨_, assemble_of_mentioned h options id path startLine, fun k => ?_⟩
  rw [finals_ofNodes]
  constructor
  · intro hk
    obtain ⟨n, hn, rfl⟩ := List.mem_map.mp hk
    obtain ⟨hmem, hfinal⟩ := List.mem_filter.mp hn
    exact (Draft.isFinal_of_mem hmem).mp hfinal
  · intro hfinal
    obtain ⟨s, hs, hmentioned⟩ := Statement.mentioned_of_finalIn hfinal
    have hids : k ∈ (Draft.ofStatements options.labelLimit ss).ids := by
      rw [Draft.ids_ofStatements, List.mem_eraseDups]
      exact List.mem_flatMap.mpr ⟨s, hs, hmentioned⟩
    obtain ⟨n, hn, rfl⟩ := List.mem_map.mp hids
    exact List.mem_map_of_mem (List.mem_filter.mpr ⟨hn, (Draft.isFinal_of_mem hn).mpr hfinal⟩)

/-- Two nodes are made circles. One of them is declared in front of that, the other behind it. -/
def circled : String :=
  "flowchart TD\nB[Last] --> A\nA@\x7b shape: circle \x7d\nB@\x7b shape: circle \x7d\nA[Work]\nB[Other]"

def circledStatements : List Statement :=
  [.edge ⟨"B", some (.rectangle, "Last")⟩ ⟨"A", none⟩ "" .plain (some 2),
   .style "A" (some "circle") [] (some 3), .style "B" (some "circle") [] (some 4),
   .node ⟨"A", some (.rectangle, "Work")⟩ (some 5),
   .node ⟨"B", some (.rectangle, "Other")⟩ (some 6)]

theorem mem_finals_of_assemble_circled :
    ∃ d, (assemble {} circledStatements "flow" none (some 1)).1 = some d ∧ "B" ∈ d.finals := by
  have hmentions : ∃ s ∈ circledStatements, s.mentioned ≠ [] := by decide
  obtain ⟨d, hd, hfinals⟩ := mem_finals_of_assemble hmentions {} "flow" none (some 1)
  have hround : (Statement.style "B" (some "circle") [] (some 4)).Rounds "B" := ⟨rfl, by decide⟩
  have hfront : Statement.RoundedIn "B" circledStatements :=
    ⟨circledStatements.take 2, _, circledStatements.drop 3, rfl, hround,
      .inl ⟨_, List.mem_cons_self, ⟨"B", some (.rectangle, "Last")⟩, by decide, rfl⟩⟩
  exact ⟨d, hd, (hfinals "B").mpr (.inr hfront)⟩

/-- The directive of a node that is declared behind it for the first time is lost. -/
theorem exists_lost_circle :
    (Block.ofText circled.toList).map (fun b => b.read.1) = [circledStatements] ∧
      (∃ s ∈ circledStatements, s.Rounds "A") ∧
      ∃ d, (assemble {} circledStatements "flow" none (some 1)).1 = some d ∧ "A" ∉ d.finals := by
  have hread : (Block.ofText circled.toList).map (fun b => b.read.1) = [circledStatements] := by
    decide +kernel
  have hround : (Statement.style "A" (some "circle") [] (some 3)).Rounds "A" := ⟨rfl, by decide⟩
  have hfinals : (assemble {} circledStatements "flow" none (some 1)).1.map (·.finals) =
      some ["B"] := by
    decide +kernel
  obtain ⟨d, hd, hnodes⟩ := Option.map_eq_some_iff.mp hfinals
  exact ⟨hread, ⟨_, by simp [circledStatements], hround⟩, d, hd, by simp [hnodes]⟩

end Diagram

end FlowMachine
