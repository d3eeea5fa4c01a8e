import FlowMachine.Label
import FlowMachine.Proofs.Text.Pieces
import Mathlib.Data.List.Basic
import Mathlib.Data.String.Basic

/-!
# Event names out of labels

Every reference holds a square bracket, a colon or a blank, and an event name holds none of them. So
a name has no reference to lose and no small letter to raise, and its runs of capitals and digits
are joined as they were: it is its own event name. The texts with that property are the empty one
and the words of such runs.
-/
namespace FlowMachine.Label

open FlowMachine.Text

/-! ## Characters -/

/-- A character of an event name. -/
def isNamePart (c : Char) : Bool := isEventChar c || c == '_'

theorem isNamePart_of_mem_eventName {label : String} {c : Char} (h : c ∈ (eventName label).toList) :
    isNamePart c = true := by
  rw [eventName, String.toList_ofList] at h
  rcases mem_joinChars h with hsep | ⟨piece, hpiece, hc⟩
  · obtain rfl := List.mem_singleton.mp hsep
    rfl
  · have hevent : isEventChar c = true := by simpa using (mem_piecesWhere hpiece).2 c hc
    simp [isNamePart, hevent]

theorem lt_of_isNamePart {c : Char} (h : isNamePart c = true) : c.toNat < 128 := by
  simp only [isNamePart, isEventChar, Bool.or_eq_true, beq_iff_eq] at h
  rcases h with hevent | rfl
  · have halnum : c.isAlphanum = true := by
      show ((c.isUpper || c.isLower) || c.isDigit) = true
      rcases hevent with h | h <;> simp [h]
    have := isAlphanum_iff.mp halnum
    omega
  · decide

/-- An event name holds nothing that a reference is known by, and upper case leaves it alone. -/
theorem facts_of_isNamePart {c : Char} (h : isNamePart c = true) :
    c ≠ '[' ∧ sameLetter ':' c = false ∧ isBlank c = false ∧ upperChar c = [c] := by
  have hascii := lt_of_isNamePart h
  revert h
  exact forall_ascii (P := fun c => isNamePart c = true →
    c ≠ '[' ∧ sameLetter ':' c = false ∧ isBlank c = false ∧
    upperChar c = [c]) (by decide) hascii

/-! ## References -/

/-- A marker stands in front of the rest, each of its characters up to case. -/
theorem exists_of_afterMarker? {marker cs rest : List Char}
    (h : afterMarker? marker cs = some rest) :
    ∃ front, front ++ rest = cs ∧ ∀ m ∈ marker, ∃ c ∈ front, sameLetter m c = true := by
  fun_induction afterMarker? marker cs with
  | case1 cs => exact ⟨[], (Option.some.inj h).symm, by simp⟩
  | case2 => cases h
  | case3 m ms c cs hsame ih =>
    obtain ⟨front, rfl, hfront⟩ := ih h
    refine ⟨c :: front, rfl,
      List.forall_mem_cons.mpr ⟨⟨c, List.mem_cons_self, hsame⟩, fun n hn => ?_⟩⟩
    obtain ⟨d, hd, hsame⟩ := hfront n hn
    exact ⟨d, List.mem_cons_of_mem _ hd, hsame⟩
  | case4 => cases h

/-- A reference of the form cannot be written with letters, digits and underscores alone. -/
def Form.isSigned : Form → Bool
  | .bracketed => true
  | .marked marker _ spaced => marker.toList.contains ':' || spaced

theorem isSigned_of_mem : ∀ form ∈ guardForms ++ actionForms, form.isSigned = true := by decide

section

variable {form : Form} {cs : List Char}

theorem Form.read?_eq_none (hform : form.isSigned = true) (hcs : ∀ c ∈ cs, isNamePart c = true)
    (prev : Option Char) : form.read? prev cs = none := by
  cases form with
  | bracketed =>
    cases cs with
    | nil => rfl
    | cons c cs =>
      obtain ⟨hbracket, -⟩ := facts_of_isNamePart (hcs c List.mem_cons_self)
      simp [read?, hbracket]
  | marked marker bounded spaced =>
    cases hrest : afterMarker? marker.toList cs with
    | none => simp [read?, hrest]
    | some rest =>
      obtain ⟨front, rfl, hfront⟩ := exists_of_afterMarker? hrest
      obtain ⟨hmarker, hbehind⟩ := List.forall_mem_append.mp hcs
      -- The marker is there, so it has no colon; then the form wants a blank behind it, and there
      -- is none.
      have hcolon : ':' ∉ marker.toList := by
        intro hmem
        obtain ⟨c, hc, hsame⟩ := hfront _ hmem
        rw [(facts_of_isNamePart (hmarker c hc)).2.1] at hsame
        cases hsame
      have hspaced : spaced = true := by simpa [isSigned, hcolon] using hform
      have hblank : rest.head?.any isBlank = false := by
        cases rest with
        | nil => rfl
        | cons c rest => exact (facts_of_isNamePart (hbehind c List.mem_cons_self)).2.2.1
      simp [read?, hrest, hspaced, hblank]

theorem Form.find?_eq_none (hform : form.isSigned = true) (hcs : ∀ c ∈ cs, isNamePart c = true)
    (prev : Option Char) : form.find? prev cs = none := by
  induction cs generalizing prev with
  | nil => rfl
  | cons c cs ih =>
    rw [find?, read?_eq_none hform hcs]
    exact ih (fun d hd => hcs d (List.mem_cons_of_mem _ hd)) (some c)

/-- A text in which a form does not occur loses nothing to it. -/
theorem Form.eraseFrom_of_find?_eq_none {prev : Option Char} (h : form.find? prev cs = none) :
    form.eraseFrom prev 0 cs = cs := by
  induction cs generalizing prev with
  | nil => rfl
  | cons c cs ih =>
    rw [find?] at h
    rw [eraseFrom]
    cases hread : form.read? prev (c :: cs) with
    | none => simpa [hread] using ih (by simpa [hread] using h)
    | some found => simp [hread] at h

end

theorem reference?_eq_none {forms : List Form} {name : String}
    (hforms : ∀ form ∈ forms, form.isSigned = true)
    (h : ∀ c ∈ name.toList, isNamePart c = true) : reference? forms name = none := by
  rw [reference?, Option.map_eq_none_iff, List.findSome?_eq_none_iff]
  exact fun form hform => Form.find?_eq_none (hforms form hform) h none

theorem foldl_erase_eq_self {forms : List Form} {cs : List Char}
    (hforms : ∀ form ∈ forms, form.find? none cs = none) :
    forms.foldl (fun text form => form.erase text) cs = cs := by
  induction forms with
  | nil => rfl
  | cons form forms ih =>
    obtain ⟨hform, hforms⟩ := List.forall_mem_cons.mp hforms
    rw [List.foldl_cons, Form.erase, Form.eraseFrom_of_find?_eq_none hform, ih hforms]

/-! ## Event names -/

/-- Runs of capitals and digits with single underscores between them. -/
inductive IsEventWord : List Char → Prop where
  | run {cs : List Char} (hsome : cs ≠ []) (hrun : ∀ c ∈ cs, isEventChar c = true) : IsEventWord cs
  | joined {cs rest : List Char} (hsome : cs ≠ []) (hrun : ∀ c ∈ cs, isEventChar c = true)
      (hrest : IsEventWord rest) : IsEventWord (cs ++ '_' :: rest)

theorem IsEventWord.isNamePart {cs : List Char} (h : IsEventWord cs) :
    ∀ c ∈ cs, isNamePart c = true := by
  induction h with
  | run hsome hrun => exact fun c hc => by simp [Label.isNamePart, hrun c hc]
  | joined hsome hrun hrest ih =>
    refine List.forall_mem_append.mpr ⟨fun c hc => by simp [Label.isNamePart, hrun c hc], ?_⟩
    exact List.forall_mem_cons.mpr ⟨rfl, ih⟩

/-- Such words are what non-empty runs are joined to. -/
theorem isEventWord_iff {cs : List Char} :
    IsEventWord cs ↔ ∃ pieces : List (List Char), pieces ≠ [] ∧
    (∀ piece ∈ pieces, piece ≠ [] ∧ ∀ c ∈ piece, isEventChar c = true) ∧
    joinChars ['_'] pieces = cs := by
  constructor
  · intro h
    induction h with
    | @run cs hsome hrun => exact ⟨[cs], by simp, by simpa using ⟨hsome, hrun⟩, rfl⟩
    | @joined cs rest hsome hrun hrest ih =>
      obtain ⟨pieces, hpieces, hruns, rfl⟩ := ih
      refine ⟨cs :: pieces, by simp, List.forall_mem_cons.mpr ⟨⟨hsome, hrun⟩, hruns⟩, ?_⟩
      rw [joinChars, List.append_assoc, List.singleton_append]
      exact hpieces
  · rintro ⟨pieces, hpieces, hruns, rfl⟩
    fun_induction joinChars ['_'] pieces with
    | case1 => exact absurd rfl hpieces
    | case2 piece =>
      obtain ⟨hsome, hrun⟩ := hruns piece List.mem_cons_self
      exact .run hsome hrun
    | case3 piece rest hrest ih =>
      obtain ⟨⟨hsome, hrun⟩, hbehind⟩ := List.forall_mem_cons.mp hruns
      rw [List.append_assoc, List.singleton_append]
      exact .joined hsome hrun (ih hrest hbehind)

theorem eventName_cases (label : String) :
    eventName label = "" ∨ IsEventWord (eventName label).toList := by
  rw [eventName, String.toList_ofList]
  by_cases hpieces : piecesWhere (!isEventChar ·) (upperChars (withoutReferences label.toList)) = []
  · exact .inl (by rw [hpieces]; rfl)
  · refine .inr (isEventWord_iff.mpr ⟨_, hpieces, fun piece hpiece => ?_, rfl⟩)
    obtain ⟨hsome, hrun⟩ := mem_piecesWhere hpiece
    exact ⟨hsome, fun c hc => by simpa using hrun c hc⟩

theorem upperChars_eq_self {cs : List Char} (h : ∀ c ∈ cs, isNamePart c = true) :
    upperChars cs = cs := by
  rw [upperChars, List.flatMap_congr fun c hc => (facts_of_isNamePart (h c hc)).2.2.2]
  exact List.flatMap_singleton' cs

theorem eventName_of_isEventWord {name : String} (h : IsEventWord name.toList) :
    eventName name = name := by
  have hkept : withoutReferences name.toList = name.toList := foldl_erase_eq_self fun form hform =>
    Form.find?_eq_none (isSigned_of_mem form hform) h.isNamePart none
  rw [eventName, hkept, upperChars_eq_self h.isNamePart]
  obtain ⟨pieces, -, hruns, hjoin⟩ := isEventWord_iff.mp h
  have hplain : ∀ piece ∈ pieces, piece ≠ [] ∧ ∀ c ∈ piece, (!isEventChar c) = false :=
    fun piece hpiece =>
    ⟨(hruns piece hpiece).1, fun c hc => by simp [(hruns piece hpiece).2 c hc]⟩
  rw [← hjoin, piecesWhere_joinChars (by decide) hplain, hjoin, String.ofList_toList]

/-- The texts that are their own event names. -/
theorem eventName_eq_self_iff {name : String} :
    eventName name = name ↔ name = "" ∨ IsEventWord name.toList := by
  constructor
  · intro h
    simpa only [h] using eventName_cases name
  · rintro (rfl | hword)
    · decide
    · exact eventName_of_isEventWord hword

/-- An event name is empty or a word of capitals and digits with single underscores between its
runs. It is its own event name, as are all such words and no other texts, and it refers to no guard
and no action. -/
theorem eventName_settled (label : String) :
    (eventName label = "" ∨ IsEventWord (eventName label).toList) ∧
      eventName (eventName label) = eventName label ∧
      guard? (eventName label) = none ∧ action? (eventName label) = none ∧
      ∀ name, eventName name = name ↔ name = "" ∨ IsEventWord name.toList := by
  have hpart : ∀ c ∈ (eventName label).toList, isNamePart c = true := fun _ =>
    isNamePart_of_mem_eventName
  have hguards : ∀ form ∈ guardForms, form.isSigned = true := fun form hform =>
    isSigned_of_mem form (List.mem_append_left _ hform)
  have hactions : ∀ form ∈ actionForms, form.isSigned = true := fun form hform =>
    isSigned_of_mem form (List.mem_append_right _ hform)
  exact ⟨eventName_cases label, eventName_eq_self_iff.mpr (eventName_cases label),
    reference?_eq_none hguards hpart, reference?_eq_none hactions hpart, fun _ =>
    eventName_eq_self_iff⟩

example : eventName "  Straße when Open [x] -- 2 do: log_it " = "STRASSE_2" := by decide

end FlowMachine.Label
