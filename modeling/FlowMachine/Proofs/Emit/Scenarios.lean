import FlowMachine.Emit.Transitions
import FlowMachine.Proofs.FirstPlaces
import FlowMachine.Proofs.Identifier

/-!
# The transition suite as an oracle

A machine takes the first transition of its state that has the event. The suite has one test for
each transition, in the order of the table, and expects what the machine does: the target of the
transition where it is the first one for its state and event, and one of the targets for this event
where an earlier one goes in front of it.
-/
namespace FlowMachine

open FlowMachine.Text FlowMachine.Identifier

/-! ## Merging underscores -/

namespace Text

theorem replaceFrom_subset {mark new cs : List Char} {skip : Nat} {c : Char}
    (h : c ∈ replaceFrom mark new skip cs) : c ∈ new ∨ c ∈ cs := by
  fun_induction replaceFrom mark new skip cs with
  | case1 => simp at h
  | case2 skip d cs ih => exact (ih h).imp_right (List.mem_cons_of_mem _)
  | case3 d cs hmark ih =>
    rcases List.mem_append.mp h with h | h
    · exact .inl h
    · exact (ih h).imp_right (List.mem_cons_of_mem _)
  | case4 d cs hmark ih =>
    rcases List.mem_cons.mp h with rfl | h
    · exact .inr List.mem_cons_self
    · exact (ih h).imp_right (List.mem_cons_of_mem _)

/-- Where no mark starts, nothing is replaced. -/
theorem replaceAll_cons {mark new cs : List Char} {c : Char} (h : ¬ mark <+: c :: cs) :
    replaceAll mark new (c :: cs) = c :: replaceAll mark new cs := by
  have hmark : mark.isPrefixOf (c :: cs) = false := by
    rw [Bool.eq_false_iff]
    exact fun hprefix => h (List.isPrefixOf_iff_prefix.mp hprefix)
  simp [replaceAll, replaceFrom, hmark]

end Text

namespace Emit

/-- Two underscores become one. -/
def mergeUnderscores (cs : List Char) : List Char := replaceAll ['_', '_'] ['_'] cs

theorem mergeUnderscores_cons {c : Char} (h : c ≠ '_') (cs : List Char) :
    mergeUnderscores (c :: cs) = c :: mergeUnderscores cs :=
  replaceAll_cons fun hprefix => h (List.cons_prefix_cons.mp hprefix).1.symm

theorem mergeUnderscores_append {front : List Char} (h : '_' ∉ front) (cs : List Char) :
    mergeUnderscores (front ++ cs) = front ++ mergeUnderscores cs := by
  induction front with
  | nil => rfl
  | cons c front ih =>
    obtain ⟨hc, hfront⟩ := List.ne_and_not_mem_of_not_mem_cons h
    rw [List.cons_append, mergeUnderscores_cons hc.symm, ih hfront, List.cons_append]

/-- An underscore in front stays, whatever becomes of the text behind it. -/
theorem exists_mergeUnderscores (cs : List Char) :
    ∃ rest, mergeUnderscores ('_' :: cs) = '_' :: rest := by
  by_cases h : ['_', '_'] <+: '_' :: cs
  · have hmark : ['_', '_'].isPrefixOf ('_' :: cs) = true := List.isPrefixOf_iff_prefix.mpr h
    rw [mergeUnderscores, replaceAll, replaceFrom, if_pos hmark]
    exact ⟨_, rfl⟩
  · exact ⟨_, replaceAll_cons h⟩

theorem isSnakeChar_of_mem_mergeUnderscores {cs : List Char}
    (hcs : ∀ c ∈ cs, isSnakeChar c = true) {c : Char}
    (h : c ∈ mergeUnderscores cs) : isSnakeChar c = true := by
  rcases replaceFrom_subset h with hunder | hc
  · rw [List.mem_singleton.mp hunder]
    rfl
  · exact hcs c hc

/-! ## Names of tests -/

theorem toList_threeDigits (n : Nat) :
    ∃ k, (threeDigits n).toList = List.replicate k '0' ++ Nat.toDigits 10 n :=
  ⟨_, by rw [threeDigits, String.toList_ofList, Nat.toString_eq_repr, Nat.toList_repr]⟩

theorem isDigit_of_mem_threeDigits {n : Nat} {c : Char} (h : c ∈ (threeDigits n).toList) :
    c.isDigit = true := by
  obtain ⟨k, hk⟩ := toList_threeDigits n
  rw [hk] at h
  rcases List.mem_append.mp h with h | h
  · rw [List.eq_of_mem_replicate h]
    rfl
  · exact Nat.isDigit_of_mem_toDigits (by decide) (by decide) h

theorem ofDigitChars_threeDigits (n : Nat) : Nat.ofDigitChars 10 (threeDigits n).toList 0 = n := by
  obtain ⟨k, hk⟩ := toList_threeDigits n
  rw [hk, Nat.ofDigitChars_append, Nat.ofDigitChars_replicate_zero, Nat.mul_zero,
    Nat.ofDigitChars_ten_toDigits]

theorem threeDigits_ne_nil (n : Nat) : (threeDigits n).toList ≠ [] := by
  obtain ⟨k, hk⟩ := toList_threeDigits n
  simp [hk, Nat.toDigits_ne_nil]

theorem underscore_not_mem_threeDigits (n : Nat) : '_' ∉ (threeDigits n).toList := fun h =>
  absurd (isDigit_of_mem_threeDigits h) (by decide)

/-- What is put behind the number of a test. -/
def nameTail (source event : String) : List Char :=
  '_' :: ((snake source).toList ++ '_' :: (snake event).toList)

theorem isSnakeChar_of_mem_nameTail {source event : String} {c : Char}
    (h : c ∈ nameTail source event) :
    isSnakeChar c = true := by
  simp only [nameTail, List.mem_cons, List.mem_append] at h
  rcases h with rfl | hsource | rfl | hevent
  · rfl
  · exact isSnakeChar_of_mem_snake hsource
  · rfl
  · exact isSnakeChar_of_mem_snake hevent

/-- Underscores are merged behind the number only, as a digit stands behind the first one. -/
theorem scenarioName_eq (n : Nat) (source event : String) : (scenarioName n source event).toList =
    ['t', 'e', 's', 't', '_'] ++
      ((threeDigits n).toList ++ mergeUnderscores (nameTail source event)) := by
  have hdigits := underscore_not_mem_threeDigits n
  have hfirst : ¬ ['_', '_'] <+: '_' :: ((threeDigits n).toList ++ nameTail source event) := by
    obtain ⟨d, ds, hds⟩ := List.exists_cons_of_ne_nil (threeDigits_ne_nil n)
    have hd : '_' ≠ d := by
      rintro rfl
      exact hdigits (by simp [hds])
    simp [hds, hd]
  have htext : (scenarioName n source event).toList =
      mergeUnderscores (['t', 'e', 's', 't'] ++ '_' ::
        ((threeDigits n).toList ++ nameTail source event)) := by
    rw [scenarioName, String.toList_ofList]
    simp [mergeUnderscores, nameTail, toString]
  rw [htext, mergeUnderscores_append (by decide), mergeUnderscores, replaceAll_cons hfirst,
    ← mergeUnderscores, mergeUnderscores_append hdigits]
  simp

/-- The digits of a number end where the tail of the name starts. -/
theorem takeWhile_number (n : Nat) (source event : String) :
    ((threeDigits n).toList ++ mergeUnderscores (nameTail source event)).takeWhile Char.isDigit =
      (threeDigits n).toList := by
  obtain ⟨rest, hrest⟩ := exists_mergeUnderscores
    ((snake source).toList ++ '_' :: (snake event).toList)
  rw [List.takeWhile_append_of_pos fun c hc => isDigit_of_mem_threeDigits hc, nameTail, hrest]
  simp

theorem eq_of_scenarioName_eq {n k : Nat} {source source' event event' : String}
    (h : scenarioName n source event = scenarioName k source' event') : n = k := by
  have htexts := congrArg String.toList h
  rw [scenarioName_eq, scenarioName_eq] at htexts
  have hdigits := congrArg (List.takeWhile Char.isDigit) (List.append_cancel_left htexts)
  rw [takeWhile_number, takeWhile_number] at hdigits
  rw [← ofDigitChars_threeDigits n, hdigits, ofDigitChars_threeDigits]

theorem usable_scenarioName (n : Nat) (source event : String) :
    Usable (scenarioName n source event) := by
  have hlead : IsLead "test_" := by decide
  have heq : scenarioName n source event =
      "test_" ++
        String.ofList ((threeDigits n).toList ++ mergeUnderscores (nameTail source event)) := by
    simp [← String.toList_inj, scenarioName_eq]
  rw [heq]
  refine usable_append hlead fun c hc => ?_
  rw [String.toList_ofList] at hc
  rcases List.mem_append.mp hc with hc | hc
  · simp [isSnakeChar, isDigit_of_mem_threeDigits hc]
  · exact isSnakeChar_of_mem_mergeUnderscores (fun _ => isSnakeChar_of_mem_nameTail) hc

end Emit

/-! ## Dispatching -/

namespace Machine

/-- Where an event leads from a state when all guards allow it: to the target of the first
transition of the state that has the event. -/
def step? (m : Machine) (name event : String) : Option (Option String) :=
  (m.state? name).bind fun s => (s.transitions.find? (·.event == event)).map (·.target)

theorem state?_of_mem {m : Machine} (h : (m.states.map (·.name)).Nodup) {s : State}
    (hs : s ∈ m.states) :
    m.state? s.name = some s := by
  obtain ⟨other, hfound⟩ : ∃ other, m.state? s.name = some other := by
    rw [← Option.isSome_iff_exists, state?, List.find?_isSome]
    exact ⟨s, hs, by simp⟩
  have hname : other.name = s.name := by simpa using List.find?_some hfound
  rw [hfound, List.inj_on_of_nodup_map h (List.mem_of_find?_eq_some hfound) hs hname]

end Machine

namespace Emit

/-- The state and the event of a row of the table. -/
def keyOf (row : State × Transition) : String × String := (row.1.name, row.2.event)

theorem mem_table {m : Machine} {row : State × Transition} :
    row ∈ table m ↔ row.1 ∈ m.states ∧ row.2 ∈ row.1.transitions := by
  simp only [table, List.mem_flatMap, List.mem_map]
  constructor
  · rintro ⟨s, hs, t, ht, rfl⟩
    exact ⟨hs, ht⟩
  · rintro ⟨hs, ht⟩
    exact ⟨row.1, hs, row.2, ht, rfl⟩

/-- The first row with a state and an event belongs to the first state of that name. -/
theorem find?_rows {states : List State} (h : (states.map (·.name)).Nodup) (name event : String) :
    (states.flatMap fun s => s.transitions.map fun t => (s, t)).find? (keyOf · == (name, event)) =
      (states.find? (·.name == name)).bind fun s =>
        (s.transitions.find? (·.event == event)).map fun t => (s, t) := by
  induction states with
  | nil => rfl
  | cons s rest ih =>
    obtain ⟨hs, hrest⟩ := List.nodup_cons.mp h
    rw [List.flatMap_cons, List.find?_append, ih hrest, List.find?_map]
    by_cases hname : s.name = name
    · have hnone : rest.find? (·.name == name) = none := by
        refine List.find?_eq_none.mpr fun other hother hsame => hs ?_
        exact List.mem_map.mpr ⟨other, hother, (beq_iff_eq.mp hsame).trans hname.symm⟩
      have hpred : ((keyOf · == (name, event)) ∘ fun t => (s, t)) = fun t : Transition =>
          t.event == event := by
        funext t
        exact Bool.eq_iff_iff.mpr (by simp [keyOf, hname])
      rw [hpred, hnone, Option.bind_none, Option.or_none,
        List.find?_cons_of_pos (by simpa using hname)]
      rfl
    · have hpred : ((keyOf · == (name, event)) ∘ fun t => (s, t)) = fun _ : Transition =>
          false := by
        funext t
        simp [keyOf, hname]
      rw [hpred, List.find?_cons_of_neg (by simpa using hname), List.find?_eq_none.mpr (by simp)]
      rfl

theorem step?_eq {m : Machine} (h : (m.states.map (·.name)).Nodup) (name event : String) :
    m.step? name event = ((table m).find? (keyOf · == (name, event))).map (·.2.target) := by
  rw [table, find?_rows h, Option.map_bind, Machine.step?, Machine.state?]
  congr 1
  funext s
  rw [Function.comp_apply, Option.map_map]
  rfl

/-! ## Tests of rows -/

/-- The test is the one for a row, where `seen` are the keys of the rows in front of it. -/
structure Scenario.IsFor (x : Scenario) (number : Nat) (seen : List (String × String))
    (row : State × Transition) : Prop where
  name_eq : x.name = scenarioName number row.1.name row.2.event
  source_eq : x.source = row.1.name
  event_eq : x.event = row.2.event
  target_eq : x.target = row.2.target
  targets_eq : x.targets =
    ((row.1.transitions.filter (·.event == row.2.event)).map (·.target)).eraseDups
  first_iff : x.first = true ↔ keyOf row ∉ seen

variable {m : Machine} {x : Scenario}

theorem Scenario.IsFor.key_eq {number : Nat} {seen : List (String × String)}
    {row : State × Transition}
    (h : x.IsFor number seen row) : (x.source, x.event) = keyOf row := by
  rw [h.source_eq, h.event_eq, keyOf]

/-- The first row gives one test, and its key is seen in front of the others. -/
theorem scenariosFrom_cons (m : Machine) (n : Nat) (seen : List (String × String))
    (row : State × Transition)
    (rest : List (State × Transition)) :
    ∃ x, scenariosFrom m n seen (row :: rest) = x ::
      scenariosFrom m (n + 1) (seen ++ [keyOf row]) rest ∧
      x.IsFor n seen row :=
  ⟨_, rfl, rfl, rfl, rfl, rfl, rfl, by simp [keyOf]⟩

/-- The tests have the states, events and targets of the rows, in order. -/
theorem map_scenariosFrom (m : Machine) (n : Nat) (seen : List (String × String))
    (rows : List (State × Transition)) :
    (scenariosFrom m n seen rows).map (fun x => (x.source, x.event, x.target)) =
      rows.map fun row => (row.1.name, row.2.event, row.2.target) := by
  induction rows generalizing n seen with
  | nil => rfl
  | cons row rest ih =>
    obtain ⟨x, hcons, hfor⟩ := scenariosFrom_cons m n seen row rest
    rw [hcons, List.map_cons, ih, List.map_cons, hfor.source_eq, hfor.event_eq, hfor.target_eq]

theorem exists_row_of_mem {n : Nat} {seen : List (String × String)}
    {rows : List (State × Transition)}
    (h : x ∈ scenariosFrom m n seen rows) : ∃ before row after, rows = before ++ row :: after ∧
      x.IsFor (n + before.length) (seen ++ before.map keyOf) row := by
  induction rows generalizing n seen with
  | nil => simp [scenariosFrom] at h
  | cons row rest ih =>
    obtain ⟨first, hcons, hfor⟩ := scenariosFrom_cons m n seen row rest
    rw [hcons] at h
    rcases List.mem_cons.mp h with rfl | h
    · exact ⟨[], row, rest, rfl, by simpa using hfor⟩
    · obtain ⟨before, other, after, rfl, hfor⟩ := ih h
      have hnumber : n + 1 + before.length = n + (row :: before).length := by
        rw [List.length_cons]
        omega
      refine ⟨row :: before, other, after, rfl, ?_⟩
      rw [← hnumber]
      simpa using hfor

/-- Numbers grow, so a name does not come again. -/
theorem nodup_names_scenariosFrom (m : Machine) (n : Nat) (seen : List (String × String))
    (rows : List (State × Transition)) : ((scenariosFrom m n seen rows).map (·.name)).Nodup := by
  induction rows generalizing n seen with
  | nil => exact List.nodup_nil
  | cons row rest ih =>
    obtain ⟨x, hcons, hfor⟩ := scenariosFrom_cons m n seen row rest
    rw [hcons, List.map_cons]
    refine List.nodup_cons.mpr ⟨fun hmem => ?_, ih (n + 1) _⟩
    obtain ⟨y, hy, hname⟩ := List.mem_map.mp hmem
    obtain ⟨before, other, after, -, hafter⟩ := exists_row_of_mem hy
    have hnumber := eq_of_scenarioName_eq ((hafter.name_eq.symm.trans hname).trans hfor.name_eq)
    omega

/-- One test of a key that was not seen is first, if there is any. -/
theorem countP_first (m : Machine) (n : Nat) (seen : List (String × String))
    (rows : List (State × Transition)) (key : String × String) :
    (scenariosFrom m n seen rows).countP (fun x => (x.source, x.event) == key && x.first) =
      if key ∈ seen then 0 else if key ∈ rows.map keyOf then 1 else 0 := by
  induction rows generalizing n seen with
  | nil => simp [scenariosFrom]
  | cons row rest ih =>
    obtain ⟨x, hcons, hfor⟩ := scenariosFrom_cons m n seen row rest
    have hhead : ((x.source, x.event) == key && x.first) = true ↔ keyOf row = key ∧ key ∉ seen := by
      rw [Bool.and_eq_true, beq_iff_eq, hfor.key_eq, hfor.first_iff]
      exact and_congr_right fun heq => by rw [heq]
    rw [hcons, List.countP_cons, ih]
    by_cases hseen : key ∈ seen
    · simp [hhead, hseen]
    · by_cases hkey : keyOf row = key
      · simp [hhead, hseen, hkey]
      · have hmem : key ∈ (row :: rest).map keyOf ↔ key ∈ rest.map keyOf := by
          rw [List.map_cons, List.mem_cons]
          exact or_iff_right (Ne.symm hkey)
        have hnew : key ∉ seen ++ [keyOf row] := by simp [hseen, Ne.symm hkey]
        simp only [hhead, hseen, hkey, hmem, hnew, false_and, if_false, Nat.add_zero]

/-! ## The suite -/

/-- What a test of the suite expects is what the machine does. -/
structure Scenario.Sound (x : Scenario) (m : Machine) : Prop where
  usable : Usable x.name
  targets_nodup : x.targets.Nodup
  /-- The targets are those of the state for the event. -/
  mem_targets_iff : ∀ target, target ∈ x.targets ↔
    ∃ y ∈ scenarios m, y.source = x.source ∧ y.event = x.event ∧ y.target = target
  step_of_first : x.first = true → m.step? x.source x.event = some x.target
  step_of_later : x.first = false → ∃ target ∈ x.targets, m.step? x.source x.event = some target
  one_first : (scenarios m).countP
    (fun y => (y.source, y.event) == (x.source, x.event) && y.first) = 1

theorem map_scenarios (m : Machine) : (scenarios m).map (fun x => (x.source, x.event, x.target)) =
    m.states.flatMap fun s => s.transitions.map fun t => (s.name, t.event, t.target) := by
  rw [scenarios, map_scenariosFrom, table, List.map_flatMap]
  simp only [List.map_map]
  rfl

theorem mem_targets_iff (h : (m.states.map (·.name)).Nodup) {number : Nat}
    {seen : List (String × String)}
    {row : State × Transition} (hrow : row ∈ table m) (hfor : x.IsFor number seen row)
    (target : Option String) :
    target ∈ x.targets ↔ ∃ y ∈ scenarios m, y.source = x.source ∧ y.event = x.event ∧
      y.target = target := by
  have htests : (∃ y ∈ scenarios m, y.source = x.source ∧ y.event = x.event ∧ y.target = target) ↔
      (x.source, x.event, target) ∈ (scenarios m).map fun y => (y.source, y.event, y.target) := by
    simp
  rw [htests, map_scenarios, hfor.targets_eq, hfor.source_eq, hfor.event_eq, List.mem_eraseDups]
  simp only [List.mem_map, List.mem_filter, List.mem_flatMap, beq_iff_eq, Prod.mk.injEq]
  constructor
  · rintro ⟨t, ⟨ht, hevent⟩, htarget⟩
    exact ⟨row.1, (mem_table.mp hrow).1, t, ht, rfl, hevent, htarget⟩
  · rintro ⟨s, hs, t, ht, hname, hevent, htarget⟩
    obtain rfl : s = row.1 := List.inj_on_of_nodup_map h hs (mem_table.mp hrow).1 hname
    exact ⟨t, ⟨ht, hevent⟩, htarget⟩

/-- Some transition of the state has the event, so dispatching finds one. -/
theorem exists_step (h : (m.states.map (·.name)).Nodup) {number : Nat}
    {seen : List (String × String)}
    {row : State × Transition} (hrow : row ∈ table m) (hfor : x.IsFor number seen row) :
    ∃ target ∈ x.targets, m.step? x.source x.event = some target := by
  obtain ⟨hs, ht⟩ := mem_table.mp hrow
  obtain ⟨t, hfound⟩ : ∃ t, row.1.transitions.find? (·.event == row.2.event) = some t := by
    rw [← Option.isSome_iff_exists, List.find?_isSome]
    exact ⟨row.2, ht, by simp⟩
  refine ⟨t.target, ?_, ?_⟩
  · rw [hfor.targets_eq, List.mem_eraseDups]
    have hevent := List.find?_some hfound
    exact List.mem_map_of_mem (List.mem_filter.mpr ⟨List.mem_of_find?_eq_some hfound, hevent⟩)
  · rw [hfor.source_eq, hfor.event_eq, Machine.step?, Machine.state?_of_mem h hs,
      Option.bind_some, hfound]
    rfl

/-- The first row with its state and event is the one that dispatching takes. -/
theorem step?_of_first (h : (m.states.map (·.name)).Nodup)
    {before after : List (State × Transition)}
    {row : State × Transition} (htable : table m = before ++ row :: after)
    (hnew : keyOf row ∉ before.map keyOf) : m.step? row.1.name row.2.event = some row.2.target := by
  have hnone : before.find? (keyOf · == keyOf row) = none := by
    refine List.find?_eq_none.mpr fun other hother hsame => hnew ?_
    exact List.mem_map.mpr ⟨other, hother, beq_iff_eq.mp hsame⟩
  rw [step?_eq h, ← keyOf, htable, List.find?_append, hnone, Option.none_or,
    List.find?_cons_of_pos (by simp)]
  rfl

theorem sound_of_mem (h : (m.states.map (·.name)).Nodup) (hx : x ∈ scenarios m) : x.Sound m := by
  obtain ⟨before, row, after, htable, hfor⟩ := exists_row_of_mem hx
  have hrow : row ∈ table m := by simp [htable]
  refine ⟨?_, ?_, mem_targets_iff h hrow hfor, ?_, fun _ => exists_step h hrow hfor, ?_⟩
  · rw [hfor.name_eq]
    exact usable_scenarioName _ _ _
  · rw [hfor.targets_eq]
    exact nodup_eraseDups _
  · intro hfirst
    rw [hfor.source_eq, hfor.event_eq, hfor.target_eq]
    exact step?_of_first h htable (by simpa using hfor.first_iff.mp hfirst)
  · rw [hfor.key_eq, scenarios, countP_first, if_neg (by simp), if_pos (List.mem_map_of_mem hrow)]

/-- When no two states have one name, the suite has one test for each transition, in order and under
names of their own, and every test expects what the machine does. -/
theorem scenarios_of_nodup (h : (m.states.map (·.name)).Nodup) :
    (scenarios m).map (fun x => (x.source, x.event, x.target)) =
        (m.states.flatMap fun s => s.transitions.map fun t => (s.name, t.event, t.target)) ∧
      ((scenarios m).map (·.name)).Nodup ∧ ∀ x ∈ scenarios m, x.Sound m :=
  ⟨map_scenarios m, nodup_names_scenariosFrom m 1 [] (table m), fun _ hx => sound_of_mem h hx⟩

/-- States and events whose names differ in their signs only, and three transitions for one
event. -/
def signMachine : Machine where
  id := "signMachine"
  displayName := "Sign"
  category := .core
  moduleName := "sign_machine"
  className := "SignMachine"
  initial := "a"
  states :=
    [{ name := "a", transitions :=
       [⟨"GO", some "a-", none, []⟩, ⟨"GO", none, none, []⟩, ⟨"GO", some "a-", none, []⟩,
       ⟨"GO!", some "a", none, []⟩] },
     { name := "a-", transitions := [⟨"GO", some "a", none, []⟩, ⟨"", some "1", none, []⟩] },
     { name := "1" }]

theorem scenarios_of_nodup_signs :
    (scenarios signMachine).map (fun x => (x.name, x.first)) =
        [("test_001_a_go", true), ("test_002_a_go", false), ("test_003_a_go", false),
          ("test_004_a_go", true), ("test_005_a_go", true), ("test_006_a_", true)] ∧
      ((scenarios signMachine).map (·.name)).Nodup ∧
        ∀ x ∈ scenarios signMachine, x.Sound signMachine := by
  have hsuite := scenarios_of_nodup (m := signMachine) (by decide)
  exact ⟨by decide, hsuite.2⟩

end Emit

end FlowMachine
