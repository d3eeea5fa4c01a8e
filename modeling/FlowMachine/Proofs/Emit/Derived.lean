import FlowMachine.Proofs.Emit.Places
import FlowMachine.Proofs.Emit.Printable
import FlowMachine.Proofs.Identifier.Repeat
import FlowMachine.Proofs.Label
import FlowMachine.Proofs.Machine.Names
import FlowMachine.Proofs.Machine.Transitions

/-!
# Derived machines are printable

The names of a derived machine are names where they stand in its documents, because they end in
`machine` or are names of states and methods. Its free texts are the name and the source of its
diagram and the labels of nodes.
-/
namespace FlowMachine

open FlowMachine.Module FlowMachine.Module.Scan FlowMachine.Identifier FlowMachine.Emit
    FlowMachine.Text

/-! ## Names out of machine ids -/

/-- No reserved word has an ending of `machine` in it. -/
theorem isOpen_of_suffix {w : List Char} (h : "achine".toList <:+ w) : isOpen w = false := by
  have hall : ∀ pair ∈ reserved, ∀ entry ∈ pair.2, ¬ "achine".toList <:+: pair.1 :: entry.1 := by
    decide
  cases w with
  | nil => simp at h
  | cons c cs =>
    refine List.any_eq_false.mpr fun entry hentry hprefix => ?_
    refine hall _ (mem_reserved hentry) entry hentry (h.isInfix.trans (List.IsPrefix.isInfix ?_))
    exact List.cons_prefix_cons.mpr ⟨rfl, List.isPrefixOf_iff_prefix.mp hprefix⟩

theorem composed_moduleName (name : String) : Composed (snake (machineId name)) [.word] := by
  have hsuffix : "achine".toList <:+ (snake (machineId name)).toList :=
    List.IsSuffix.trans (by decide) (suffix_snake_machineId name)
  refine .piece (.word ⟨?_, fun c hc => ?_⟩ (isOpen_of_suffix hsuffix))
  · obtain ⟨c, rest, heq, hdigit⟩ := exists_toList_snake (machineId name)
    refine ⟨c, rest, heq, ?_⟩
    have hc := isAlphanum_of_isSnakeChar (isSnakeChar_of_mem_snake (heq ▸ List.mem_cons_self))
    simpa [isStart, Char.isAlphanum, hdigit] using hc
  · simpa [isNameChar] using isAlphanum_of_isSnakeChar (isSnakeChar_of_mem_snake hc)

theorem suffix_className (name : String) :
    "achine".toList <:+ (className (machineId name)).toList := by
  rw [className, dropWhile_machineId]
  cases hstem : machineStem name.toList with
  | nil => decide
  | cons c cs =>
    have hcs : "achine".toList <:+ cs ++ machineSuffix.toList :=
      List.IsSuffix.trans (by decide) (List.suffix_append _ _)
    simp only [List.cons_append]
    split_ifs
    · rw [String.toList_ofList (l := 'M' :: c :: (cs ++ machineSuffix.toList))]
      exact hcs.trans ⟨['M', c], rfl⟩
    · rw [String.toList_ofList (l := Text.upperChar c ++ (cs ++ machineSuffix.toList))]
      exact hcs.trans (List.suffix_append _ _)

theorem composed_className (name : String) : Composed (className (machineId name)) [.word] := by
  obtain ⟨c, rest, heq, hc, hrest⟩ := exists_toList_className name
  have halpha : c.isAlpha = true := by
    show (c.isUpper || c.isLower) = true
    rw [hc, Bool.true_or]
  refine .piece (.word ⟨⟨c, rest, heq, ?_⟩, ?_⟩ (isOpen_of_suffix (suffix_className name)))
  · simp [isStart, halpha]
  · rw [heq]
    refine List.forall_mem_cons.mpr ⟨?_, fun x hx => ?_⟩
    · simp [isNameChar, Char.isAlphanum, halpha]
    · simp [isNameChar, List.all_eq_true.mp hrest x hx]

/-! ## Derived machines -/

namespace Machine

/-- The fields that derived machines can have. -/
def contextFields : List ContextField :=
  [Category.user, .agent, .info, .account, .core].flatMap Category.context ++
    [{ name := "current_step", kind := .number, default := "1",
       doc := "Current step in a multi-step flow" },
     { name := "error", kind := .text, default := "None", optional := true, nullable := true,
       doc := "Last error message" },
     { name := "user_input", kind := .text, default := "\"\"", optional := true,
       doc := "Last user input" }]

theorem mem_contextFields_of_mem_contextOf {d : Diagram} {f : ContextField} (h : f ∈ contextOf d) :
    f ∈ contextFields := by
  unfold contextOf at h
  simp only [List.mem_append] at h
  rcases h with ((h | h) | h) | h
  · refine List.mem_append_left _ (List.mem_flatMap.mpr ⟨d.category, ?_, h⟩)
    cases d.category <;> simp
  · split_ifs at h
    · simp [contextFields, List.mem_singleton.mp h]
    · cases h
  · simp [contextFields, List.mem_singleton.mp h]
  · split_ifs at h
    · simp [contextFields, List.mem_singleton.mp h]
    · cases h

theorem forms_contextFields :
    ∀ f ∈ contextFields, (f.name.toList.head?.any isStart && f.name.toList.all isNameChar &&
    !isOpen f.name.toList && fieldForms.contains (f.annotation, f.default) && !f.doc.isEmpty &&
    !f.doc.toList.contains (Char.ofNat 0)) = true := by
  decide +kernel

theorem mem_contextOf {d : Diagram} {f : ContextField} (h : f ∈ contextOf d) :
    Composed f.name [.word] ∧ (f.annotation, f.default) ∈ fieldForms ∧ f.doc ≠ "" ∧
      NulFree f.doc := by
  have hforms := forms_contextFields f (mem_contextFields_of_mem_contextOf h)
  simp only [Bool.and_eq_true, Bool.not_eq_true', List.contains_iff_mem] at hforms
  obtain ⟨⟨⟨⟨⟨hstart, hchars⟩, hopen⟩, hform⟩, hdoc⟩, hclear⟩ := hforms
  refine ⟨.piece (.word ⟨?_, List.all_eq_true.mp hchars⟩ hopen), hform, by simpa using hdoc,
    by simpa [NulFree] using hclear⟩
  obtain ⟨c, hhead, hc⟩ := by simpa [Option.any_eq_true] using hstart
  obtain ⟨rest, heq⟩ := List.head?_eq_some_iff.mp hhead
  exact ⟨c, rest, heq, hc⟩

/-- Events bring along what the kinds of transitions do. -/
theorem exists_payload_of_mem_foldl {specs events : List Event}
    (h : ∀ e ∈ events ++ specs, ∃ kind : Label.Kind, e.payload = kind.payload)
    {e : Event} (he : e ∈ specs.foldl addEvent events) :
    ∃ kind : Label.Kind, e.payload = kind.payload := by
  induction specs generalizing events with
  | nil => exact h e (by simpa using he)
  | cons spec specs ih =>
    refine ih (fun e he => h e ?_) he
    unfold addEvent at he
    split at he
    · rcases List.mem_append.mp he with he | he
      · exact List.mem_append_left _ he
      · exact List.mem_append_right _ (List.mem_cons_of_mem _ he)
    · simpa [List.append_assoc] using he

theorem payload_of_mem_eventsOf {edges : List Edge} {e : Event} (h : e ∈ eventsOf edges) :
    ∃ kind : Label.Kind, e.payload = kind.payload := by
  refine exists_payload_of_mem_foldl (fun e he => ?_) h
  obtain ⟨edge, -, hspec⟩ := List.mem_filterMap.mp ((List.mem_append.mp he).resolve_left (by simp))
  unfold eventSpec? at hspec
  dsimp only at hspec
  split at hspec
  · cases hspec
  · obtain rfl := Option.some.inj hspec
    exact ⟨edge.kind, rfl⟩

theorem className_derive (o : DeriveOptions) (d : Diagram) :
    (derive o d).className = Identifier.className (machineId d.id) := by
  rw [derive]

theorem isTame_of_isStateName {id : String} (h : IsStateName id) :
    ∀ c ∈ id.toList, isTame c = true := by
  obtain ⟨c, rest, htext, hc, hrest⟩ := h
  have hchar : ∀ x : Char, x.isAlphanum = true ∨ x = '_' ∨ x = '-' → isTame x = true := by
    rintro x (hx | rfl | rfl)
    · exact isTame_of_isNameChar (by simp [isNameChar, hx])
    · decide
    · decide
  rw [htext]
  refine List.forall_mem_cons.mpr ⟨hchar c (.inl ?_), fun x hx => hchar x (hrest x hx)⟩
  simp [Char.isAlphanum, hc]

theorem nulFree_of_isTame {s : String} (h : ∀ c ∈ s.toList, isTame c = true) : NulFree s :=
  fun hmem => absurd (h _ hmem) (by decide)

theorem nulFree_eventOf (e : Edge) : NulFree (eventOf e) := by
  unfold eventOf
  dsimp only
  split_ifs
  · decide
  · exact fun hmem => absurd (Label.isNamePart_of_mem_eventName hmem) (by decide)

theorem nulFree_machineId (name : String) : NulFree (machineId name) := by
  rw [NulFree, toList_machineId, List.mem_append, not_or]
  refine ⟨fun hmem => ?_, by decide⟩
  have hstem : ∀ c ∈ machineStem name.toList, c ≠ Char.ofNat 0 := by
    rintro c hc rfl
    have := isStem_machineStem name.toList _ hc
    revert this
    decide
  rcases shieldDigit_cases (machineStem name.toList) with hshield | hshield
  · exact hstem _ (hshield ▸ hmem) rfl
  · rw [hshield] at hmem
    exact hstem _ ((List.mem_cons.mp hmem).resolve_left (by decide)) rfl

theorem nulFree_description (o : DeriveOptions) (d : Diagram) :
    NulFree (derive o d).description := by
  have hcategory : NulFree d.category.description := by cases d.category <;> decide
  rw [derive]
  have hcount (n : Nat) : NulFree n.repr := nulFree_toString n
  simp only [toString, nulFree_append]
  exact ⟨⟨⟨⟨⟨by decide, hcategory⟩, by decide⟩, hcount _⟩, by decide⟩,
    ⟨by decide, hcount _⟩, by decide⟩

end Machine

/-- No null character is in the texts of a diagram that its documents show: its name, the name of
its source and the labels of its nodes. -/
structure Diagram.IsClear (d : Diagram) : Prop where
  name : NulFree (Machine.derive {} d).displayName
  source : NulFree (sourceName (Machine.derive {} d))
  labels : ∀ n ∈ d.nodes, NulFree n.label

namespace Machine

theorem printable_derive {d : Diagram} (h : d.WellFormed) (hclear : d.IsClear) :
    Printable (derive {} d) where
  id := nulFree_machineId d.id
  displayName := hclear.name
  description := nulFree_description {} d
  initial := by
    show NulFree d.initial
    exact nulFree_of_isTame (isTame_of_isStateName (h.ids_named _ h.initial_mem))
  source := hclear.source
  moduleName := moduleName_derive {} d ▸ composed_moduleName d.id
  className := className_derive {} d ▸ composed_className d.id
  actors := by
    refine .piece (.tame (List.all_eq_true.mp ?_))
    show (", ".intercalate (actorsOf d)).toList.all isTame = true
    unfold actorsOf
    cases d.category <;> split_ifs <;> decide +kernel
  imports := ⟨d.category, rfl⟩
  names f hf := (mem_contextOf hf).1
  fields f hf := (mem_contextOf hf).2
  methods name hname := by
    rcases List.mem_append.mp hname with hguard | haction
    · exact usable_of_mem_guardsOf hguard
    · exact usable_of_mem_actionsOf haction
  payload e he := payload_of_mem_eventsOf he
  states s hs := by
    rw [states_derive] at hs
    obtain ⟨n, hn, rfl⟩ := List.mem_map.mp hs
    refine ⟨?_, hclear.labels n hn⟩
    have hid : n.id ∈ d.nodeIds := List.mem_map_of_mem hn
    exact nulFree_of_isTame (isTame_of_isStateName (h.ids_named _ hid))
  events s hs t ht := by
    rw [states_derive] at hs
    obtain ⟨n, -, rfl⟩ := List.mem_map.mp hs
    rw [stateOf] at ht
    obtain ⟨e, -, rfl⟩ := List.mem_map.mp ht
    dsimp only [transitionOf]
    exact nulFree_eventOf e
  targets s hs t ht target htarget := by
    obtain ⟨id, hid, heq⟩ := (follows_derive {} h).targets_closed s hs t ht
    obtain rfl : target = id := by simpa [heq] using htarget.symm
    rw [states_derive, names_statesOf] at hid
    exact isTame_of_isStateName (h.ids_named _ hid)

end Machine

end FlowMachine
