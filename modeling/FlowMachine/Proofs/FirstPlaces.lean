import Mathlib.Data.List.Nodup

/-!
# Items at their first places

A list that is built by entering items one by one, where an item that is there already changes
nothing, is the list of all of them without the later repetitions.
-/
namespace FlowMachine

/-- Appends an item that the list does not hold. -/
def enter {α : Type*} [BEq α] (xs : List α) (x : α) : List α :=
  if xs.contains x then xs else xs ++ [x]

variable {α : Type*} [BEq α] [LawfulBEq α]

theorem enter_of_mem {xs : List α} {x : α} (h : x ∈ xs) : enter xs x = xs := by
  simp [enter, h]

theorem enter_of_not_mem {xs : List α} {x : α} (h : x ∉ xs) : enter xs x = xs ++ [x] := by
  simp [enter, h]

theorem nodup_enter {xs : List α} (h : xs.Nodup) (x : α) : (enter xs x).Nodup := by
  by_cases hx : x ∈ xs
  · rwa [enter_of_mem hx]
  · rw [enter_of_not_mem hx]
    refine List.nodup_append.mpr ⟨h, by simp, ?_⟩
    intro a ha b hb hab
    rw [List.mem_singleton.mp hb] at hab
    exact hx (hab ▸ ha)

/-- The items that are new are appended, each at its first place among them. -/
theorem foldl_enter (xs acc : List α) :
    xs.foldl enter acc = acc ++ (xs.removeAll acc).eraseDups := by
  induction xs generalizing acc with
  | nil => simp [List.removeAll]
  | cons x xs ih =>
    rw [List.foldl_cons, ih]
    by_cases hx : x ∈ acc
    · simp [enter_of_mem hx, List.removeAll, hx]
    · have hfilter : (xs.removeAll acc).filter (fun y => !y == x) = xs.removeAll (acc ++ [x]) := by
        simp only [List.removeAll, List.filter_filter]
        refine List.filter_congr fun y _ => ?_
        by_cases hy : y = x <;> simp [hy]
      rw [enter_of_not_mem hx, ← hfilter]
      simp [List.removeAll, hx, List.eraseDups_cons]

theorem foldl_enter_nil (xs : List α) : xs.foldl enter [] = xs.eraseDups := by
  simp [foldl_enter]

theorem nodup_foldl_enter (xs : List α) {acc : List α} (h : acc.Nodup) :
    (xs.foldl enter acc).Nodup := by
  induction xs generalizing acc with
  | nil => exact h
  | cons x xs ih => exact ih (nodup_enter h x)

theorem nodup_eraseDups (xs : List α) : xs.eraseDups.Nodup := by
  rw [← foldl_enter_nil]
  exact nodup_foldl_enter xs List.nodup_nil

theorem eraseDups_of_nodup {xs : List α} (h : xs.Nodup) : xs.eraseDups = xs := by
  induction xs with
  | nil => rfl
  | cons x xs ih =>
    obtain ⟨hx, hrest⟩ := List.nodup_cons.mp h
    have hkept : xs.filter (fun y => !y == x) = xs := by
      refine List.filter_eq_self.mpr fun y hy => ?_
      have hne : y ≠ x := fun heq => hx (heq ▸ hy)
      simp [hne]
    rw [List.eraseDups_cons, hkept, ih hrest]

end FlowMachine
