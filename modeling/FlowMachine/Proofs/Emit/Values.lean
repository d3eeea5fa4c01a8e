import FlowMachine.Proofs.Module.Written
import FlowMachine.Emit.Boundaries
import FlowMachine.Emit.Demo
import FlowMachine.Emit.Transitions
import FlowMachine.Proofs.Emit.Tables

/-!
# Tables as data

The tables of the documents are written as lists, tuples and mappings of literals, whatever texts
the machine has.
-/
namespace FlowMachine.Emit

open FlowMachine.Text FlowMachine.Module Scan

variable {opened cs ds : List Char} {R : List Token → Prop}

@[simp] theorem document_nil : document [] = "" := rfl

@[simp] theorem document_cons (line : String) (lines : List String) :
    document (line :: lines) = line ++ "\n" ++ document lines := by
  simp [document]

/-! ## Lists and tuples -/

/-- The text is written as an operand. -/
def IsValue (s : String) : Prop := Writes [] IsOperand s.toList

theorem isValue_literal (s : String) : IsValue (literal s) := writes_literal s

theorem isValue_literalOr (s : Option String) : IsValue (literalOr s) := by
  cases s with
  | none => exact writes_constant (by decide)
  | some s => exact isValue_literal s

theorem isValue_truth (b : Bool) : IsValue (truth b) := by
  cases b <;> exact writes_constant (by decide)

/-- Elements with commas between them. -/
theorem writes_intercalate {items : List String} (h : ∀ item ∈ items, IsValue item)
    (hsome : items ≠ [])
    (closer : String) (hcloser : closer ∈ [")", "]"]) (hopened : opened ≠ [])
    (hlast : ∀ {ds : List Char}, Writes [] IsOperand ds →
    Writes opened (IsItems closer) (ds ++ closer.toList)) :
    Writes opened (IsItems closer) ((", ".intercalate items ++ closer)).toList := by
  rw [String.toList_append, String.toList_intercalate]
  induction items with
  | nil => exact absurd rfl hsome
  | cons item items ih =>
    obtain ⟨hitem, hitems⟩ := List.forall_mem_cons.mp h
    cases items with
    | nil => simpa using hlast hitem
    | cons next items =>
      have hrest := ih hitems (List.cons_ne_nil _ _)
      have hall := Writes.item hcloser hitem (hrest.blank hopened)
      simpa [List.intercalate_cons_of_ne_nil] using hall

theorem writes_literalList {items : List String} (h : ∀ item ∈ items, IsValue item) :
    Writes [] IsDisplay (literalList items).toList := by
  by_cases hsome : items = []
  · subst hsome
    exact Writes.closeList.list
  · have hall := (writes_intercalate h hsome "]" (by decide) (by decide) Writes.lastOfList).list
    simpa [literalList] using hall

theorem writes_literalTuple {items : List String} (h : ∀ item ∈ items, IsValue item) :
    Writes [] IsDisplay (literalTuple items).toList := by
  match items with
  | [] => exact Writes.emptyTuple
  | [item] =>
    have hall := Writes.tuple (h item List.mem_cons_self) Writes.closeTuple
    simpa [literalTuple] using hall
  | item :: next :: items =>
    obtain ⟨hitem, hitems⟩ := List.forall_mem_cons.mp h
    have hrest := writes_intercalate hitems (List.cons_ne_nil _ _) ")" (by decide)
      (by decide) Writes.lastOfTuple
    have hall := Writes.tuple hitem (hrest.blank (by decide))
    simpa [literalTuple, String.toList_intercalate, List.intercalate_cons_of_ne_nil] using hall

theorem writes_listOf (items : List String) : Writes [] IsDisplay (listOf items).toList :=
  writes_literalList (List.forall_mem_map.mpr fun s _ => isValue_literal s)

theorem writes_tupleOf (items : List String) : Writes [] IsDisplay (tupleOf items).toList :=
  writes_literalTuple (List.forall_mem_map.mpr fun s _ => isValue_literal s)

/-! ## Entries -/

theorem writes_blanks (blanks : List Char) (hblanks : blanks.all (· == ' ') = true)
    (h : Writes opened R cs) (hopened : opened ≠ []) : Writes opened R (blanks ++ cs) := by
  induction blanks with
  | nil => exact h
  | cons c blanks ih =>
    obtain ⟨hc, hrest⟩ := Bool.and_eq_true_iff.mp hblanks
    obtain rfl := eq_of_beq hc
    exact (ih hrest).blank hopened

/-- Lines of a mapping with a value each, with what stands in front of the values. -/
structure Field.IsWritten (f : Field) : Prop where
  front : f.front = "        " ++ literal f.key ++ ": "
  value : IsValue f.value

theorem writes_fields {fields : List Field} (h : ∀ f ∈ fields, f.IsWritten)
    (hcs : Writes ['\x7b'] IsEntries cs) :
    Writes ['\x7b'] IsEntries ((document (fields.map Field.line)).toList ++ cs) := by
  induction fields with
  | nil => exact hcs
  | cons f fields ih =>
    obtain ⟨hf, hfields⟩ := List.forall_mem_cons.mp h
    have hentry := Writes.entry (isValue_literal f.key) hf.value ((ih hfields).newline (by decide))
    have hall := writes_blanks "        ".toList (by decide) hentry (by decide)
    simpa [Field.line, hf.front] using hall

/-- The text of a mapping over several lines. -/
theorem writes_mapping {fields : List Field} (h : ∀ f ∈ fields, f.IsWritten) :
    Writes [] IsDisplay ("\x7b\n" ++ document (fields.map Field.line) ++ "    \x7d").toList := by
  have hclose : Writes ['\x7b'] IsEntries "    \x7d".toList :=
    writes_blanks "    ".toList (by decide) Writes.closeMapping (by decide)
  have hall := ((writes_fields h hclose).newline (by decide)).mapping
  simpa using hall

theorem writes_entryLines {fields : List Field} (h : ∀ f ∈ fields, f.IsWritten)
    (hcs : Writes ['['] (IsItems "]") cs) :
    Writes ['['] (IsItems "]") ((document (entryLines fields)).toList ++ cs) := by
  have hitem := Writes.item (by decide) (writes_mapping h).isOperand (hcs.newline (by decide))
  have hall := writes_blanks "    ".toList (by decide) hitem (by decide)
  simpa [entryLines, document_append] using hall

theorem isWritten_ofText {front key s : String} (h : front = "        " ++ literal key ++ ": ") :
    (Field.ofText front key s).IsWritten :=
  ⟨h, isValue_literal s⟩

theorem isWritten_ofTexts {front key : String} {items : List String}
    (h : front = "        " ++ literal key ++ ": ") :
    (Field.ofTexts front key items).IsWritten :=
  ⟨h, (writes_listOf items).isOperand⟩

theorem isWritten_stateFields (s : State) : ∀ f ∈ stateFields s, f.IsWritten := by
  simp only [stateFields, List.forall_mem_cons, List.not_mem_nil, false_implies,
    implies_true, and_true]
  exact ⟨isWritten_ofText (by decide), isWritten_ofTexts (by decide),
    isWritten_ofTexts (by decide)⟩

theorem isWritten_transitionFields (source : String) (t : Transition) :
    ∀ f ∈ transitionFields source t, f.IsWritten := by
  intro f hf
  rcases List.mem_append.mp hf with hf | hf
  · rcases List.mem_append.mp hf with hf | hf
    · simp only [List.mem_cons, List.not_mem_nil, or_false] at hf
      rcases hf with rfl | rfl | rfl
      · exact isWritten_ofText (by decide)
      · exact isWritten_ofText (by decide)
      · cases t.target with
        | none => exact ⟨by decide, writes_constant (by decide)⟩
        | some s => exact isWritten_ofText (by decide)
    · obtain ⟨guard, -, rfl⟩ := List.mem_map.mp hf
      exact isWritten_ofTexts (by decide)
  · split_ifs at hf
    · cases hf
    · rw [List.mem_singleton.mp hf]
      exact isWritten_ofTexts (by decide)

/-! ## Tables -/

/-- The entries of a table with the bracket that closes it. -/
theorem writes_entries {entries : List (List Field)}
    (h : ∀ fields ∈ entries, ∀ f ∈ fields, f.IsWritten)
    (hcs : Writes ['['] (IsItems "]") cs) :
    Writes ['['] (IsItems "]") ((document (entries.flatMap entryLines)).toList ++ cs) := by
  induction entries with
  | nil => exact hcs
  | cons fields entries ih =>
    obtain ⟨hfields, hentries⟩ := List.forall_mem_cons.mp h
    have hall := writes_entryLines hfields (ih hentries)
    simpa [document_append] using hall

/-- A list over several lines. -/
theorem writes_lines {lines : List String}
    (h : Writes ['['] (IsItems "]") ((document lines).toList ++ [']'])) :
    Writes [] IsDisplay ("[\n" ++ document lines ++ "]").toList := by
  have hall := (h.newline (by decide)).list
  simpa using hall

theorem writes_transitionTable (m : Machine) : Writes [] IsDisplay (transitionTable m).toList := by
  have hlines : (m.states.flatMap fun s => s.transitions.flatMap (transitionEntry s.name)) =
      (m.states.flatMap fun s => s.transitions.map (transitionFields s.name)).flatMap
      entryLines := by
    have hentry (source : String) : transitionEntry source = fun t =>
        entryLines (transitionFields source t) :=
      funext (transitionEntry_eq source)
    simp [List.flatMap_assoc, List.flatMap_map, hentry]
  rw [transitionTable, hlines]
  refine writes_lines (writes_entries (fun fields hfields => ?_) Writes.closeList)
  obtain ⟨s, -, hfields⟩ := List.mem_flatMap.mp hfields
  obtain ⟨t, -, rfl⟩ := List.mem_map.mp hfields
  exact isWritten_transitionFields s.name t

/-- A comment has the characters of its text, and blanks. -/
theorem isClear_of_mem_comment {s : String} (h : NulFree s) {c : Char}
    (hc : c ∈ (comment s).toList) : isClear c = true := by
  have hend := isLineEnd_of_mem_comment hc
  simp only [Literal.isLineEnd, Bool.or_eq_false_iff, beq_eq_false_iff_ne] at hend
  refine isClear_iff.mpr ⟨hend.2, ?_⟩
  rintro rfl
  rw [comment, String.toList_ofList] at hc
  rcases mem_joinChars hc with hblank | ⟨word, hword, hc⟩
  · exact absurd (List.mem_singleton.mp hblank) (by decide)
  · exact h (mem_of_mem_splitWhere (List.mem_filter.mp hword).1 hc)

theorem writes_stateEntry {s : State} (hdoc : NulFree s.doc) (hcs : Writes ['['] (IsItems "]") cs) :
    Writes ['['] (IsItems "]") ((document (stateEntry s)).toList ++ cs) := by
  have hentry := writes_entryLines (isWritten_stateFields s) hcs
  have hchars : ∀ c ∈ ' ' :: (comment s.doc).toList, c ≠ '\n' ∧ isClear c = true := by
    intro c hc
    rcases List.mem_cons.mp hc with rfl | hc
    · decide
    · have hend := isLineEnd_of_mem_comment hc
      simp only [Literal.isLineEnd, Bool.or_eq_false_iff, beq_eq_false_iff_ne] at hend
      exact ⟨hend.1, isClear_of_mem_comment hdoc hc⟩
  have hcomment := Writes.comment hentry (by decide) hchars
  have hall := writes_blanks "    ".toList (by decide) hcomment (by decide)
  simpa [stateEntry_eq] using hall

theorem writes_flatMap {α : Type} (lines : α → List String) (xs : List α)
    (h : ∀ x ∈ xs, ∀ {cs : List Char}, Writes opened R cs →
    Writes opened R ((document (lines x)).toList ++ cs))
    (hcs : Writes opened R cs) : Writes opened R ((document (xs.flatMap lines)).toList ++ cs) := by
  induction xs with
  | nil => exact hcs
  | cons x xs ih =>
    obtain ⟨hx, hxs⟩ := List.forall_mem_cons.mp h
    have hall := hx (ih hxs)
    simpa [document_append] using hall

theorem writes_stateTable {m : Machine} (hdocs : ∀ s ∈ m.states, NulFree s.doc) :
    Writes [] IsDisplay (stateTable m).toList :=
  writes_lines (writes_flatMap stateEntry m.states
    (fun s hs _ hcs => writes_stateEntry (hdocs s hs) hcs) Writes.closeList)

/-! ## Events -/

/-- The text of the table of events. -/
def eventTable (m : Machine) : String :=
  "\x7b\n" ++ document (m.events.flatMap eventEntry) ++ "\x7d"

theorem writes_payloadLine (f : PayloadField) (hcs : Writes ['\x7b'] IsEntries cs) :
    Writes ['\x7b'] IsEntries ((document [payloadLine f]).toList ++ cs) := by
  have hkind : IsValue (literal "kind") := isValue_literal _
  have hoptional : IsValue (literal "optional") := isValue_literal _
  have hlast := Writes.lastEntry hoptional (isValue_truth f.optional)
  have hinner :=
    (Writes.entry hkind (isValue_literal f.kind.name) (hlast.blank (by decide))).mapping
  have hentry := Writes.entry (isValue_literal f.name) hinner.isOperand (hcs.newline (by decide))
  have hall := writes_blanks "            ".toList (by decide) hentry (by decide)
  have hkey : literal "kind" = "'kind'" := by decide
  have hkey' : literal "optional" = "'optional'" := by decide
  unfold payloadLine
  simpa [hkey, hkey'] using hall

theorem writes_eventEntry (e : Event) (hcs : Writes ['\x7b'] IsEntries cs) :
    Writes ['\x7b'] IsEntries ((document (eventEntry e)).toList ++ cs) := by
  have hclose : Writes ['\x7b'] IsEntries "        \x7d".toList :=
    writes_blanks "        ".toList (by decide) Writes.closeMapping (by decide)
  have hpayload := writes_flatMap (fun f => [payloadLine f]) e.payload
    (fun f _ _ hcs => writes_payloadLine f hcs) hclose
  have hclose' : Writes ['\x7b'] IsEntries "    \x7d".toList :=
    writes_blanks "    ".toList (by decide) Writes.closeMapping (by decide)
  have hdoc := writes_blanks "        ".toList (by decide)
    (Writes.entry (isValue_literal "doc") (isValue_literal e.doc) (hclose'.newline (by decide)))
    (by decide)
  have hfirst := writes_blanks "        ".toList (by decide)
    (Writes.entry (isValue_literal "payload") (hpayload.newline (by decide)).mapping.isOperand
      (hdoc.newline (by decide))) (by decide)
  have hentry := Writes.entry (isValue_literal e.name)
    (hfirst.newline (by decide)).mapping.isOperand (hcs.newline (by decide))
  have hall := writes_blanks "    ".toList (by decide) hentry (by decide)
  have hkey : literal "doc" = "'doc'" := by decide
  have hkey' : literal "payload" = "'payload'" := by decide
  have hlines : (e.payload.flatMap fun f => [payloadLine f]) = e.payload.map payloadLine :=
    List.map_eq_flatMap.symm
  simpa [eventEntry, hkey, hkey', hlines, document_append] using hall

theorem writes_eventTable (m : Machine) : Writes [] IsDisplay (eventTable m).toList := by
  have hall :=
    ((writes_flatMap eventEntry m.events (fun e _ _ hcs => writes_eventEntry e hcs)
    Writes.closeMapping).newline
    (by decide)).mapping
  simpa [eventTable] using hall

/-! ## Lines of items -/

/-- A list with one item on each line. -/
theorem writes_itemLines {α : Type} {line : α → String} (value : α → String) {xs : List α}
    (hline : ∀ x, line x = "    " ++ value x ++ ",") (hvalue : ∀ x, IsValue (value x)) :
    Writes [] IsDisplay ("[\n" ++ document (xs.map line) ++ "]").toList := by
  rw [List.map_eq_flatMap]
  refine writes_lines (writes_flatMap _ _ (fun x _ cs hcs => ?_) Writes.closeList)
  have hall := writes_blanks "    ".toList (by decide)
      (Writes.item (by decide) (hvalue x) (hcs.newline (by decide))) (by decide)
  simpa [hline] using hall

theorem writes_usage (m : Machine) :
    Writes [] IsDisplay
      ("[\n" ++ document (m.events.map fun e => "    " ++ literal (usageLine e) ++ ",") ++
      "]").toList :=
  writes_itemLines (fun e => literal (usageLine e)) (fun _ => rfl) fun e =>
    isValue_literal (usageLine e)

theorem writes_cases (m : Machine) :
    Writes [] IsDisplay ("[\n" ++ document ((boundaryCases m).map caseLine) ++ "]").toList := by
  refine writes_itemLines (fun c => tupleOf [c.event, c.source, c.field]) (fun c => ?_)
    fun c => (writes_tupleOf _).isOperand
  simp [caseLine, tupleOf, literalTuple, ← String.toList_inj]

end FlowMachine.Emit
