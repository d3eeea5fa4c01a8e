import FlowMachine.Module.Check
import FlowMachine.Proofs.Module.Runs
import FlowMachine.Proofs.Text.Null

/-!
# Whole module texts

A text that is gone through from the start to a state that a module may end in is read as a module.
Stretches of text that lead from one state to another can be put behind each other.
-/
namespace FlowMachine.Module.Scan

open Text

variable {S T U : Scan} {c : Char} {cs ds rest : List Char}

/-! ## Ends of modules -/

theorem nested_dedents {α : Type} (xs : List α) {slots : List Slot}
    (hclosed : slots.all Slot.isClosed = true)
    (hlength : xs.length + 1 = slots.length) (line : Nat) :
    Nested slots (xs.map (fun _ => ⟨.dedent, line, 0⟩) ++ [⟨.eof, line, 0⟩]) := by
  induction xs generalizing slots with
  | nil =>
    obtain ⟨s, rfl⟩ := List.length_eq_one_iff.mp hlength.symm
    exact .eof (by simpa using hclosed) line 0
  | cons x xs ih =>
    match slots, hlength with
    | s :: s' :: slots, hlength =>
      simp only [List.all_cons, Bool.and_eq_true] at hclosed
      exact .dedent hclosed.1 line 0 (ih (by simpa using hclosed.2) (by simpa using hlength))

theorem good_nil (h : S.isEnd = true) : S.Good [] := by
  simp only [isEnd, Bool.and_eq_true, beq_iff_eq, Bool.not_eq_true'] at h
  obtain ⟨⟨⟨hmode, hheaded⟩, hclosed⟩, hlength⟩ := h
  rw [Good, hmode]
  intro fuel p hp hfuel
  obtain ⟨fuel, rfl⟩ : ∃ k, fuel = k + 1 := ⟨fuel - 1, by omega⟩
  have hwidths : (p.indents.filter (·.width != 0)).length = (S.indents.filter (· != 0)).length := by
    rw [hp.indents, List.filter_map, List.length_map]
    rfl
  rw [hheaded, Accepts, if_neg Bool.false_ne_true]
  simp only [List.replicate_zero, List.nil_append, lineTokens, lineStart]
  exact nested_dedents _ hclosed (by rw [hwidths, hlength]) _

/-! ## Whole texts -/

theorem unifyBreaks_cons (hc : c ≠ '\r') (cs : List Char) :
    unifyBreaks (c :: cs) = c :: unifyBreaks cs := by
  rw [unifyBreaks]
  all_goals simp [hc]

theorem unifyBreaks_append (h : '\r' ∉ cs) (rest : List Char) :
    unifyBreaks (cs ++ rest) = cs ++ unifyBreaks rest := by
  induction cs with
  | nil => rfl
  | cons c cs ih =>
    rw [List.mem_cons, not_or] at h
    rw [List.cons_append, unifyBreaks_cons (Ne.symm h.1), ih h.2, List.cons_append]

/-- From the state on, the characters are the rest of a module text, and none is a null
character. -/
def Admits (S : Scan) (cs : List Char) : Prop := S.Good (unifyBreaks cs) ∧ Char.ofNat 0 ∉ cs

theorem admits_nil (h : S.isEnd = true) : S.Admits [] := ⟨good_nil h, List.not_mem_nil⟩

theorem isClear_iff : isClear c = true ↔ c ≠ '\r' ∧ c ≠ Char.ofNat 0 := by
  simp [isClear]

theorem clear_of_run (h : S.run cs = some T) : ∀ c ∈ cs, isClear c = true := by
  induction cs generalizing S with
  | nil => nofun
  | cons c cs ih =>
    rw [run] at h
    split at h
    · next hc =>
      obtain ⟨S₁, -, hrun⟩ := Option.bind_eq_some_iff.mp h
      exact List.forall_mem_cons.mpr ⟨hc, ih hrun⟩
    · cases h

theorem return_not_mem_of_clear (h : ∀ c ∈ cs, isClear c = true) : '\r' ∉ cs :=
  fun hmem => (isClear_iff.mp (h _ hmem)).1 rfl

theorem nul_not_mem_of_clear (h : ∀ c ∈ cs, isClear c = true) : Char.ofNat 0 ∉ cs :=
  fun hmem => (isClear_iff.mp (h _ hmem)).2 rfl

theorem admits_of_run (h : S.run cs = some T) (hrest : T.Admits rest) : S.Admits (cs ++ rest) := by
  refine ⟨?_, List.not_mem_append (nul_not_mem_of_clear (clear_of_run h)) hrest.2⟩
  induction cs generalizing S with
  | nil =>
    cases h
    exact hrest.1
  | cons c cs ih =>
    rw [run] at h
    split at h
    · next hc =>
      obtain ⟨S₁, hstep, hrun⟩ := Option.bind_eq_some_iff.mp h
      rw [List.cons_append, unifyBreaks_cons (isClear_iff.mp hc).1]
      exact good_of_step hstep (ih hrun)
    · cases h

/-- A text that is gone through from its start is read as a module. -/
theorem exists_read_of_admits (h : ({} : Scan).Admits cs) : ∃ o, read cs = .ok o := by
  have hgood : Nested [.fresh] (tokenList (unifyBreaks cs)) :=
    h.1 _ {} ⟨rfl, rfl⟩ (by simp only [List.replicate_zero, List.nil_append]; omega)
  obtain ⟨o, us, hbody⟩ := moduleBody_of_nested hgood
    (by omega : _ ≤ 16 * (tokenList (unifyBreaks cs)).length + 64)
  exact ⟨o, by simp [read, hbody]⟩

/-! ## Stretches of text -/

/-- The characters lead from a state to another. -/
def Leads (S T : Scan) (cs : List Char) : Prop := ∀ rest, T.Admits rest → S.Admits (cs ++ rest)

theorem Leads.refl (S : Scan) : S.Leads S [] := fun _ h => h

theorem leads_of_run (h : S.run cs = some T) : S.Leads T cs := fun _ hrest => admits_of_run h hrest

theorem Leads.append (hfront : S.Leads T cs) (hback : T.Leads U ds) : S.Leads U (cs ++ ds) := by
  intro rest hrest
  rw [List.append_assoc]
  exact hfront _ (hback _ hrest)

theorem Leads.flatMap {α : Type} {f : α → List Char} {xs : List α} (h : ∀ x ∈ xs, S.Leads S (f x)) :
    S.Leads S (xs.flatMap f) := by
  induction xs with
  | nil => exact .refl S
  | cons x xs ih =>
    rw [List.flatMap_cons]
    exact (h x List.mem_cons_self).append (ih fun y hy => h y (List.mem_cons_of_mem _ hy))

end FlowMachine.Module.Scan
