import FlowMachine.Emit.MachineModule
import FlowMachine.Proofs.Text.Literals
import FlowMachine.Proofs.Text.Pieces

/-!
# The tables of a machine module

The tables of states and transitions are read back as the states and transitions of the machine,
whatever its texts are. The documentation of a state stands in a comment, which it cannot leave, and
all other texts stand in literals.
-/
namespace FlowMachine.Emit

open FlowMachine.Text FlowMachine.Literal

/-! ## Lines of tables -/

theorem document_append (front back : List String) :
    document (front ++ back) = document front ++ document back := by
  simp [document]

theorem document_singleton (line : String) : document [line] = line ++ "\n" := by
  simp [document]

/-- Lines are tokens when each of them is. -/
theorem lexes_document_append {front back : List String} {ts us : List Token}
    (hfront : Lexes (document front).toList ts) (hback : Lexes (document back).toList us) :
    Lexes (document (front ++ back)).toList (ts ++ us) := by
  rw [document_append, String.toList_append]
  exact hfront.append hback

theorem lexes_flatMap {α : Type} {lines : α → List String} {tokens : α → List Token}
    (h : ∀ x, Lexes (document (lines x)).toList (tokens x)) (xs : List α) :
    Lexes (document (xs.flatMap lines)).toList (xs.flatMap tokens) := by
  induction xs with
  | nil => rfl
  | cons x xs ih =>
    rw [List.flatMap_cons, List.flatMap_cons]
    exact lexes_document_append (h x) ih

/-- A comment is one line, whatever its text is. -/
theorem isLineEnd_of_mem_comment {s : String} {c : Char} (hc : c ∈ (comment s).toList) :
    isLineEnd c = false := by
  rw [comment, String.toList_ofList] at hc
  have hblank : isLineEnd c = true → isBlank c = true := by
    intro h
    rcases Bool.or_eq_true_iff.mp h with h | h <;> obtain rfl := eq_of_beq h <;> decide
  rcases mem_joinChars hc with hc | ⟨word, hword, hc⟩
  · rw [List.mem_singleton.mp hc]
    rfl
  · have hother := (mem_piecesWhere hword).2 c hc
    cases hbreak : isLineEnd c with
    | false => rfl
    | true => rw [hblank hbreak] at hother; cases hother

theorem lexes_commentLine (s : String) : Lexes (document ["    # " ++ comment s]).toList [] := by
  have hindent : Lexes "    ".toList [] := rfl
  have hcomment : Lexes ('#' :: (' ' :: (comment s).toList) ++ ['\n']) [] := by
    refine lexes_comment fun c hc => ?_
    rcases List.mem_cons.mp hc with rfl | hc
    · rfl
    · exact isLineEnd_of_mem_comment hc
  simpa [document_singleton] using hindent.append hcomment

/-! ## Entries of tables -/

/-- A field of an entry as it is written: what stands in front of the value, the text of the value,
and what they are read as. -/
structure Field where
  front : String
  value : String
  key : String
  tokens : List Token
  datum : Datum

namespace Field

def line (f : Field) : String := f.front ++ f.value ++ ","

/-- The field as the reader of mappings takes it. -/
def triple (f : Field) : String × List Token × Datum := (f.key, f.tokens, f.datum)

/-- The field is read as it says. -/
structure Sound (f : Field) : Prop where
  front : Lexes f.front.toList [.text f.key, .mark ':']
  value : Lexes (f.value.toList ++ [',']) (f.tokens ++ [.mark ','])
  denotes : Denotes f.tokens f.datum

/-- A field with a text. -/
def ofText (front key s : String) : Field := ⟨front, literal s, key, [.text s], .text s⟩

/-- A field with a list of texts. -/
def ofTexts (front key : String) (items : List String) : Field :=
  ⟨front, listOf items, key, listTokens items, .list (items.map .text)⟩

theorem sound_ofText {front key : String} (s : String)
    (h : Lexes front.toList [.text key, .mark ':']) :
    (ofText front key s).Sound :=
  ⟨h, lexes_literal s rfl, denotes_text s⟩

theorem sound_ofTexts {front key : String} (items : List String)
    (h : Lexes front.toList [.text key, .mark ':']) : (ofTexts front key items).Sound :=
  ⟨h, (lexes_listOf items).append rfl, denotes_listTokens items⟩

theorem lexes_line {f : Field} (h : f.Sound) :
    Lexes (document [f.line]).toList (fieldTokens f.triple) := by
  have hbreak : Lexes ['\n'] [] := rfl
  simpa [document_singleton, line, triple, fieldTokens] using (h.front.append h.value).append hbreak

theorem lexes_lines {fields : List Field} (h : ∀ f ∈ fields, f.Sound) :
    Lexes (document (fields.map line)).toList ((fields.map triple).flatMap fieldTokens) := by
  induction fields with
  | nil => rfl
  | cons f fields ih =>
    have hrest := ih fun other hother => h other (List.mem_cons_of_mem _ hother)
    have hall := lexes_document_append (lexes_line (h f List.mem_cons_self)) hrest
    rwa [List.singleton_append, ← List.map_cons, ← List.flatMap_cons, ← List.map_cons] at hall

end Field

/-- The lines of an entry. -/
def entryLines (fields : List Field) : List String :=
  ["    \x7b"] ++ fields.map Field.line ++ ["    \x7d,"]

/-- The tokens of an entry, without the comma behind it. -/
def entryTokens (fields : List Field) : List Token :=
  .mark '{' :: (fields.map Field.triple).flatMap fieldTokens ++ [.mark '}']

/-- What an entry stands for. -/
def entryDatum (fields : List Field) : Datum := .ofFields (fields.map fun f => (f.key, f.datum))

theorem lexes_entryLines {fields : List Field} (h : ∀ f ∈ fields, f.Sound) :
    Lexes (document (entryLines fields)).toList (entryTokens fields ++ [.mark ',']) := by
  have hopen : Lexes (document ["    \x7b"]).toList [.mark '{'] := rfl
  have hclose : Lexes (document ["    \x7d,"]).toList [.mark '}', .mark ','] := rfl
  have hall := lexes_document_append (lexes_document_append hopen (Field.lexes_lines h)) hclose
  simpa [entryLines, entryTokens] using hall

theorem denotes_entryTokens {fields : List Field} (h : ∀ f ∈ fields, f.Sound)
    (hkeys : (fields.map Field.key).Nodup) : Denotes (entryTokens fields) (entryDatum fields) := by
  have hdenotes : ∀ field ∈ fields.map Field.triple, Denotes field.2.1 field.2.2 :=
    List.forall_mem_map.mpr fun f hf => (h f hf).denotes
  have hread := denotes_fields hdenotes (by simpa [Function.comp_def, Field.triple] using hkeys)
  simpa [entryTokens, entryDatum, Field.triple, Function.comp_def] using hread

/-! ## States -/

/-- The fields of a state. -/
def stateFields (s : State) : List Field :=
  [.ofText "        'name': " "name" s.name, .ofTexts "        'on_enter': " "on_enter" s.entry,
    .ofTexts "        'on_exit': " "on_exit" s.exit]

theorem stateEntry_eq (s : State) :
    stateEntry s = ["    # " ++ comment s.doc] ++ entryLines (stateFields s) := rfl

theorem sound_stateFields (s : State) : ∀ f ∈ stateFields s, f.Sound := by
  simp only [stateFields, List.forall_mem_cons, List.not_mem_nil, false_implies,
    implies_true, and_true]
  exact ⟨Field.sound_ofText s.name (by decide),
    Field.sound_ofTexts s.entry (by decide), Field.sound_ofTexts s.exit (by decide)⟩

theorem nodup_stateFields (s : State) : ((stateFields s).map Field.key).Nodup := by
  have hkeys : (stateFields s).map Field.key = ["name", "on_enter", "on_exit"] := rfl
  rw [hkeys]
  decide

theorem lexes_stateEntry (s : State) :
    Lexes (document (stateEntry s)).toList (entryTokens (stateFields s) ++ [.mark ',']) := by
  have hall := lexes_document_append (lexes_commentLine s.doc)
    (lexes_entryLines (sound_stateFields s))
  rwa [List.nil_append, ← stateEntry_eq] at hall

/-! ## Transitions -/

/-- The field of a target, which may be missing. -/
def targetField : Option String → Field
  | some s => .ofText "        'dest': " "dest" s
  | none => ⟨"        'dest': ", "None", "dest", [.null], .null⟩

/-- The fields of a transition from a source. -/
def transitionFields (source : String) (t : Transition) : List Field :=
  [.ofText "        'trigger': " "trigger" t.event, .ofText "        'source': " "source" source,
    targetField t.target]
  ++ ((t.guard.filter (!·.isEmpty)).toList.map fun guard =>
    .ofTexts "        'conditions': " "conditions" [guard])
  ++ (if t.actions.isEmpty then [] else [.ofTexts "        'after': " "after" t.actions])

theorem conditionsLine_eq (guard : String) :
    "        'conditions': [" ++ literal guard ++ "]," =
      (Field.ofTexts "        'conditions': " "conditions" [guard]).line := by
  simp [Field.line, Field.ofTexts, listOf, literalList, ← String.toList_inj]

theorem transitionEntry_eq (source : String) (t : Transition) :
    transitionEntry source t = entryLines (transitionFields source t) := by
  have htarget : "        'dest': " ++ literalOr t.target ++ "," = (targetField t.target).line := by
    cases t.target <;> rfl
  have hactions :
      (if t.actions.isEmpty then [] else ["        'after': " ++ listOf t.actions ++ ","]) =
      (if t.actions.isEmpty then [] else [Field.ofTexts "        'after': " "after" t.actions]).map
        Field.line := by
    split_ifs <;> rfl
  unfold transitionEntry entryLines transitionFields
  simp only [conditionsLine_eq, htarget, hactions, List.map_append, List.map_map]
  rfl

theorem sound_targetField (target : Option String) : (targetField target).Sound := by
  cases target with
  | some s => exact Field.sound_ofText s (by decide)
  | none => exact ⟨by decide, by decide, denotes_null⟩

theorem sound_transitionFields (source : String) (t : Transition) :
    ∀ f ∈ transitionFields source t, f.Sound := by
  intro f hf
  rcases List.mem_append.mp hf with hf | hf
  · rcases List.mem_append.mp hf with hf | hf
    · simp only [List.mem_cons, List.not_mem_nil, or_false] at hf
      rcases hf with rfl | rfl | rfl
      · exact Field.sound_ofText t.event (by decide +kernel)
      · exact Field.sound_ofText source (by decide +kernel)
      · exact sound_targetField t.target
    · obtain ⟨guard, -, rfl⟩ := List.mem_map.mp hf
      exact Field.sound_ofTexts [guard] (by decide +kernel)
  · split_ifs at hf
    · cases hf
    · rw [List.mem_singleton.mp hf]
      exact Field.sound_ofTexts t.actions (by decide)

theorem lexes_transitionEntry (source : String) (t : Transition) :
    Lexes (document (transitionEntry source t)).toList
      (entryTokens (transitionFields source t) ++ [.mark ',']) := by
  rw [transitionEntry_eq]
  exact lexes_entryLines (sound_transitionFields source t)

theorem nodup_transitionFields (source : String) (t : Transition) :
    ((transitionFields source t).map Field.key).Nodup := by
  have htarget : (targetField t.target).key = "dest" := by cases t.target <;> rfl
  unfold transitionFields
  cases t.guard.filter (!·.isEmpty) <;> split_ifs <;> simp [Field.ofText, Field.ofTexts, htarget]

/-! ## Tables -/

/-- What stands in front of the table of states. -/
def beforeTables (m : Machine) : String :=
  document (moduleHeader m ++ constants m ++ ["EVENTS: Dict[str, Dict[str, Any]] = \x7b"] ++
    m.events.flatMap eventEntry ++ ["\x7d", ""])

/-- The text of the table of states. -/
def stateTable (m : Machine) : String := "[\n" ++ document (m.states.flatMap stateEntry) ++ "]"

/-- The text of the table of transitions. -/
def transitionTable (m : Machine) : String :=
  "[\n" ++ document (m.states.flatMap fun s => s.transitions.flatMap (transitionEntry s.name)) ++
    "]"

/-- What stands behind the tables. -/
def afterTables (m : Machine) : String :=
  document (["", "", ""] ++ contextClass m ++ modelClass m ++ methods m ++ builder m)

theorem machineModule_eq (m : Machine) :
    machineModule m = beforeTables m ++ "STATES: List[Dict[str, Any]] = " ++ stateTable m ++
      "\n\nTRANSITIONS: List[Dict[str, Any]] = " ++ transitionTable m ++ afterTables m := by
  simp [machineModule, tables, beforeTables, afterTables, stateTable, transitionTable, document,
    ← String.toList_inj]

/-- What a state has in the table. -/
def stateDatum (s : State) : Datum :=
  .ofFields [("name", .text s.name), ("on_enter", .list (s.entry.map .text)),
    ("on_exit", .list (s.exit.map .text))]

/-- What a transition has in the table: conditions if it has a guard that is not empty, and what
runs after it if it has actions. -/
def transitionDatum (source : String) (t : Transition) : Datum :=
  .ofFields ([("trigger", .text t.event), ("source", .text source),
    ("dest", (t.target.map .text).getD .null)]
    ++ (match t.guard with
      | none => []
      | some guard => if guard = "" then [] else [("conditions", .list [.text guard])])
    ++ (if t.actions = [] then [] else [("after", .list (t.actions.map .text))]))

theorem entryDatum_transitionFields (source : String) (t : Transition) :
    entryDatum (transitionFields source t) = transitionDatum source t := by
  have htarget : ((targetField t.target).key, (targetField t.target).datum) =
      ("dest", (t.target.map .text).getD .null) := by
    cases t.target <;> rfl
  have hguard : ((t.guard.filter (!·.isEmpty)).toList.map fun guard =>
        Field.ofTexts "        'conditions': " "conditions" [guard]).map
        (fun f => (f.key, f.datum)) =
      match t.guard with
      | none => []
      | some guard => if guard = "" then [] else [("conditions", .list [.text guard])] := by
    cases t.guard with
    | none => rfl
    | some guard =>
      by_cases h : guard = "" <;> simp [Option.filter, h, Field.ofTexts]
  have hactions :
    (if t.actions.isEmpty then [] else [Field.ofTexts "        'after': " "after" t.actions]).map
        (fun f => (f.key, f.datum)) =
      if t.actions = [] then [] else [("after", .list (t.actions.map .text))] := by
    by_cases h : t.actions = [] <;> simp [h, Field.ofTexts]
  rw [entryDatum, transitionFields, List.map_append, List.map_append, hguard, hactions,
    List.map_cons, List.map_cons, List.map_cons, htarget]
  rfl

/-- A table of entries is read as the list of what they stand for. -/
theorem read?_table {lines : List String} {entries : List (List Field)}
    (hlexes : Lexes (document lines).toList
      (entries.flatMap fun fields => entryTokens fields ++ [.mark ',']))
    (h : ∀ fields ∈ entries, (∀ f ∈ fields, f.Sound) ∧ (fields.map Field.key).Nodup) :
    read? ("[\n" ++ document lines ++ "]") = some (.list (entries.map entryDatum)) := by
  have hopen : Lexes "[\n".toList [.mark '['] := rfl
  have hclose : Lexes "]".toList [.mark ']'] := rfl
  have htable : Lexes ("[\n" ++ document lines ++ "]").toList
      (.mark '[' :: (entries.flatMap fun fields => entryTokens fields ++ [.mark ',']) ++
        [.mark ']']) := by
    simpa using (hopen.append hlexes).append hclose
  have hitems : ∀ item ∈ entries.map fun fields => (entryTokens fields, entryDatum fields),
      Denotes item.1 item.2 :=
    List.forall_mem_map.mpr fun fields hfields =>
      denotes_entryTokens (h fields hfields).1 (h fields hfields).2
  refine read?_of_lexes htable ?_
  simpa [List.flatMap_map, Function.comp_def] using denotes_list hitems

/-- The tables of states and transitions stand in the module as literals of the states and of their
transitions, in order. -/
theorem machineModule_tables (m : Machine) :
    machineModule m = beforeTables m ++ "STATES: List[Dict[str, Any]] = " ++ stateTable m ++
      "\n\nTRANSITIONS: List[Dict[str, Any]] = " ++ transitionTable m ++ afterTables m ∧
    read? (stateTable m) = some (.list (m.states.map stateDatum)) ∧
    read? (transitionTable m) =
      some (.list (m.states.flatMap fun s => s.transitions.map (transitionDatum s.name))) := by
  refine ⟨machineModule_eq m, ?_, ?_⟩
  · have hlexes : Lexes (document (m.states.flatMap stateEntry)).toList
        ((m.states.map stateFields).flatMap fun fields => entryTokens fields ++ [.mark ',']) := by
      rw [List.flatMap_map]
      exact lexes_flatMap lexes_stateEntry m.states
    have hread := read?_table hlexes <| List.forall_mem_map.mpr fun s _ =>
      ⟨sound_stateFields s, nodup_stateFields s⟩
    rwa [List.map_map] at hread
  · have hlexes : Lexes
        (document (m.states.flatMap fun s => s.transitions.flatMap (transitionEntry s.name))).toList
        ((m.states.flatMap fun s => s.transitions.map (transitionFields s.name)).flatMap
          fun fields =>
          entryTokens fields ++ [.mark ',']) := by
      rw [List.flatMap_assoc]
      refine lexes_flatMap (fun s => ?_) m.states
      rw [List.flatMap_map]
      exact lexes_flatMap (lexes_transitionEntry s.name) s.transitions
    have hread := read?_table hlexes fun fields hfields => by
      obtain ⟨s, -, hfields⟩ := List.mem_flatMap.mp hfields
      obtain ⟨t, -, rfl⟩ := List.mem_map.mp hfields
      exact ⟨sound_transitionFields s.name t, nodup_transitionFields s.name t⟩
    simpa [transitionTable, List.map_flatMap, Function.comp_def,
      entryDatum_transitionFields] using hread

end FlowMachine.Emit
