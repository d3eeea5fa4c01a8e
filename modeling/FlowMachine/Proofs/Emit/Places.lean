import FlowMachine.Emit
import FlowMachine.Machine.Derive
import FlowMachine.Proofs.Identifier
import Mathlib.Data.List.Basic
import Mathlib.Tactic.SplitIfs

/-!
# Where documents go

A module name is the stem of the machine id with `machine` behind it, so it tells the id. A file
name tells the document and the module name, but for one pair: the smoke suite of a machine without
a stem has the name of the module of a machine whose stem is `test`. A path tells the directory and
the file name.
-/
namespace FlowMachine

open FlowMachine.Text

namespace Identifier

/-! ## Module names -/

/-- Small letters and digits alone. -/
def IsStem (cs : List Char) : Prop := ∀ c ∈ cs, c.isLower = true ∨ c.isDigit = true

theorem isStem_machineStem (cs : List Char) : IsStem (machineStem cs) := by
  intro c hc
  have hmem : c ∈ (cs.filter Char.isAlphanum).map Char.toLower := by
    unfold machineStem at hc
    dsimp only at hc
    cases hstrip : stripEnd? "machine".toList ((cs.filter Char.isAlphanum).map Char.toLower) with
    | none => rwa [hstrip] at hc
    | some rest =>
      rw [hstrip] at hc
      exact mem_of_mem_stripEnd? hstrip hc
  obtain ⟨letter, hletter, rfl⟩ := List.mem_map.mp hmem
  exact isLower_or_isDigit_toLower (List.mem_filter.mp hletter).2

/-- What holds of a character of a stem. -/
theorem stemChar_facts {c : Char} (h : c.isLower = true ∨ c.isDigit = true) :
    c.isAlphanum = true ∧ c.isUpper = false ∧ c.toLower = c := by
  have hc : c.toNat < 128 := by
    have halnum : c.isAlphanum = true := by
      show (c.isUpper || c.isLower || c.isDigit) = true
      rcases h with h | h <;> simp [h]
    have := isAlphanum_iff.mp halnum
    omega
  revert h
  exact forall_ascii (P := fun c => c.isLower = true ∨ c.isDigit = true →
    c.isAlphanum = true ∧ c.isUpper = false ∧ c.toLower = c) (by decide +kernel) hc

theorem filter_of_isStem {cs : List Char} (h : IsStem cs) : cs.filter Char.isAlphanum = cs :=
  List.filter_eq_self.mpr fun c hc => (stemChar_facts (h c hc)).1

theorem map_toLower_of_isStem {cs : List Char} (h : IsStem cs) : cs.map Char.toLower = cs :=
  (List.map_congr_left fun c hc => (stemChar_facts (h c hc)).2.2).trans (List.map_id cs)

theorem markHumps_append {cs : List Char} (h : ∀ c ∈ cs, c.isUpper = false) (prev : Option Char)
    (rest : List Char) :
    markHumps prev (cs ++ rest) = cs ++ markHumps (cs.getLast?.or prev) rest := by
  induction cs generalizing prev with
  | nil => rfl
  | cons c cs ih =>
    obtain ⟨hc, hcs⟩ := List.forall_mem_cons.mp h
    rw [List.cons_append, markHumps, ih hcs]
    simp [startsHump, hc, List.getLast?_cons]

/-- What stands behind the stem in a module name. -/
def moduleEnding (cs : List Char) : List Char :=
  if cs.isEmpty then "machine".toList else "_machine".toList

/-- A shield is the only character in front of a stem. -/
theorem shieldDigit_cases (cs : List Char) :
    shieldDigit cs = cs ∨ shieldDigit cs = '_' :: cs := by
  unfold shieldDigit
  split
  · exact .inl rfl
  · split_ifs
    · exact .inr rfl
    · exact .inl rfl

theorem filter_shieldDigit {cs : List Char} (h : IsStem cs) :
    (shieldDigit cs).filter Char.isAlphanum = cs := by
  rcases shieldDigit_cases cs with hshield | hshield
  · rw [hshield, filter_of_isStem h]
  · rw [hshield, List.filter_cons_of_neg (by decide), filter_of_isStem h]

theorem piecesWhere_shieldDigit (cs : List Char) :
    piecesWhere (!·.isAlphanum) (shieldDigit cs) = piecesWhere (!·.isAlphanum) cs := by
  rcases shieldDigit_cases cs with hshield | hshield
  · rw [hshield]
  · rw [hshield]
    exact piecesWhere_append_cons rfl [] cs

theorem snakeWords_machineId {cs : List Char} (h : IsStem cs) :
    snakeWords (shieldDigit cs ++ machineSuffix.toList) = cs ++ moduleEnding cs := by
  by_cases hempty : cs = []
  · subst hempty
    decide
  -- a stem has no capitals, so the only hump is the one in front of the ending
  have hupper : ∀ c ∈ shieldDigit cs, c.isUpper = false := by
    intro c hc
    rcases shieldDigit_cases cs with hshield | hshield
    · rw [hshield] at hc
      exact (stemChar_facts (h c hc)).2.1
    · rw [hshield] at hc
      rcases List.mem_cons.mp hc with rfl | hc
      · decide
      · exact (stemChar_facts (h c hc)).2.1
  have hlast : ∃ c, (shieldDigit cs).getLast? = some c ∧ (c.isLower = true ∨ c.isDigit = true) := by
    refine ⟨cs.getLast hempty, ?_, h _ (List.getLast_mem hempty)⟩
    rcases shieldDigit_cases cs with hshield | hshield
    · rw [hshield, List.getLast?_eq_some_getLast]
    · rw [hshield, List.getLast?_cons, List.getLast?_eq_some_getLast hempty]
      rfl
  obtain ⟨last, hlast, hsmall⟩ := hlast
  have hmarked : markHumps none (shieldDigit cs ++ machineSuffix.toList) =
      shieldDigit cs ++ '_' :: machineSuffix.toList := by
    rw [markHumps_append hupper, hlast]
    have hhump : startsHump (some last) 'M' (some 'a') = true := by
      rcases hsmall with hsmall | hsmall <;> simp [startsHump, hsmall]
    have hrest : markHumps (some 'M') "achine".toList = "achine".toList := by decide
    show shieldDigit cs ++ markHumps (some last) ('M' :: "achine".toList) = _
    rw [markHumps, hrest]
    simp [hhump, machineSuffix]
  have hplain : ∀ c ∈ cs, (!c.isAlphanum) = false := fun c hc =>
    by simp [(stemChar_facts (h c hc)).1]
  have hpieces : piecesWhere (!·.isAlphanum) (shieldDigit cs ++ '_' :: machineSuffix.toList) =
      [cs, machineSuffix.toList] := by
    have hsuffix : piecesWhere (!·.isAlphanum) machineSuffix.toList = [machineSuffix.toList] := by
      decide
    rw [piecesWhere_append_cons rfl, piecesWhere_shieldDigit,
      piecesWhere_of_forall hplain hempty, hsuffix]
    rfl
  rw [snakeWords, hmarked, hpieces]
  simp [joinChars, map_toLower_of_isStem h, moduleEnding, hempty]
  decide

/-- The module name of a machine id. -/
theorem toList_snake_machineId (name : String) : (snake (machineId name)).toList =
    shieldDigit (machineStem name.toList) ++ moduleEnding (machineStem name.toList) := by
  have hstem : stem (machineId name) =
      shieldDigit (machineStem name.toList) ++ moduleEnding (machineStem name.toList) := by
    rw [stem, machineId, String.toList_ofList, snakeWords_machineId (isStem_machineStem _)]
    cases machineStem name.toList with
    | nil => rfl
    | cons c cs =>
      simp only [shieldDigit, List.cons_append]
      split_ifs <;> rfl
  have hends : "machine".toList <:+ stem (machineId name) := by
    rw [hstem, moduleEnding]
    refine List.IsSuffix.trans ?_ (List.suffix_append _ _)
    split_ifs <;> decide
  obtain ⟨hempty, -⟩ | ⟨-, hword, -⟩ | ⟨-, -, hsnake⟩ := snake_cases (machineId name)
  · rw [hempty] at hends
    exact absurd hends (by decide)
  · have hwords : ∀ w ∈ reservedWords, ¬ "machine".toList <:+ w.toList := by decide
    exact absurd hends (by simpa using hwords _ hword)
  · rw [hsnake, String.toList_ofList, hstem]

theorem suffix_snake_machineId (name : String) :
    "machine".toList <:+ (snake (machineId name)).toList := by
  rw [toList_snake_machineId, moduleEnding]
  refine List.IsSuffix.trans ?_ (List.suffix_append _ _)
  split_ifs <;> decide

/-- A module name tells the stem. -/
theorem filter_snake_machineId (name : String) :
    (snake (machineId name)).toList.filter Char.isAlphanum =
      machineStem name.toList ++ "machine".toList := by
  rw [toList_snake_machineId, List.filter_append, filter_shieldDigit (isStem_machineStem _),
    moduleEnding]
  split_ifs <;> rfl

theorem snake_machineId_inj {x y : String} :
    snake (machineId x) = snake (machineId y) ↔ machineId x = machineId y := by
  refine ⟨fun h => ?_, fun h => by rw [h]⟩
  have hstems := filter_snake_machineId x
  rw [h, filter_snake_machineId, List.append_cancel_right_eq] at hstems
  rw [machineId, machineId, hstems]

/-- Only the module of a machine whose stem is `test` has the name of another module with `test_` in
front, and the other machine has no stem then. -/
theorem test_snake_machineId_iff {x y : String} :
    "test_" ++ snake (machineId x) = snake (machineId y) ↔
      machineId x = "Machine" ∧ machineId y = "testMachine" := by
  constructor
  · intro h
    have htext : "test_".toList ++ (snake (machineId x)).toList = (snake (machineId y)).toList := by
      rw [← h, String.toList_append]
    have hstems : "test".toList ++ machineStem x.toList = machineStem y.toList := by
      have hkept := congrArg (List.filter Char.isAlphanum) htext
      rw [List.filter_append, filter_snake_machineId, filter_snake_machineId, ← List.append_assoc,
        List.append_cancel_right_eq] at hkept
      exact hkept
    -- behind `test` one side goes on with an underscore, which no stem starts with
    have hx : machineStem x.toList = [] := by
      have hsep : '_' :: (snake (machineId x)).toList = machineStem x.toList ++
          "_machine".toList := by
        have hshield (cs : List Char) : shieldDigit ("test".toList ++ cs) =
          "test".toList ++ cs := rfl
        have hending (cs : List Char) : moduleEnding ("test".toList ++ cs) =
          "_machine".toList := rfl
        rw [toList_snake_machineId y, ← hstems, hshield, hending, List.append_assoc] at htext
        have hcut : "test".toList ++ '_' :: (snake (machineId x)).toList =
          "test".toList ++ (machineStem x.toList ++ "_machine".toList) := htext
        exact List.append_cancel_left hcut
      cases hcs : machineStem x.toList with
      | nil => rfl
      | cons c cs =>
        rw [hcs, List.cons_append] at hsep
        have hstem := isStem_machineStem x.toList c (by simp [hcs])
        rw [← (List.cons.inj hsep).1] at hstem
        exact absurd hstem (by decide)
    rw [machineId, machineId, ← hstems, hx]
    decide
  · rintro ⟨hx, hy⟩
    rw [hx, hy]
    decide

end Identifier

/-! ## File names -/

namespace Document

/-- What stands in front of the module name. -/
def lead : Document → String
  | .machine | .demo | .service => ""
  | .smokeTests | .transitionTests | .errorTests => "test_"

/-- What stands behind the module name. -/
def ending : Document → String
  | .machine | .smokeTests => ".py"
  | .transitionTests => "_transitions.py"
  | .errorTests => "_errors.py"
  | .demo => "_demo.py"
  | .service => "_service.py"

theorem fileName_eq (document : Document) (module : String) :
    document.fileName module = document.lead ++ module ++ document.ending := by
  cases document <;> simp [fileName, lead, ending, toString, String.append_assoc]

/-- Behind `machine`, an ending tells itself from every other. -/
theorem ending_eq_of_suffix {d e : Document}
    (h : "machine".toList ++ d.ending.toList <:+ "machine".toList ++ e.ending.toList) :
    d.ending = e.ending := by
  revert h
  cases d <;> cases e <;> decide

/-- Documents with one ending. -/
theorem eq_or_of_ending_eq {d e : Document} (h : d.ending = e.ending) :
    d = e ∨ d = .smokeTests ∧ e = .machine ∨ d = .machine ∧ e = .smokeTests := by
  revert h
  cases d <;> cases e <;> decide

theorem ending_eq_of_fileName_eq {d e : Document} {x y : String}
    (hx : "machine".toList <:+ x.toList)
    (hy : "machine".toList <:+ y.toList) (h : d.fileName x = e.fileName y) :
    d.ending = e.ending := by
  have hends {d : Document} {x : String} (hx : "machine".toList <:+ x.toList) :
      "machine".toList ++ d.ending.toList <:+ (d.fileName x).toList := by
    obtain ⟨front, hfront⟩ := hx
    refine ⟨d.lead.toList ++ front, ?_⟩
    rw [fileName_eq, String.toList_append, String.toList_append, ← hfront]
    simp only [List.append_assoc]
  have hd := hends (d := d) hx
  rw [h] at hd
  rcases List.suffix_or_suffix_of_suffix hd (hends hy) with hsuffix | hsuffix
  · exact ending_eq_of_suffix hsuffix
  · exact (ending_eq_of_suffix hsuffix).symm

open FlowMachine.Identifier

theorem fileName_eq_iff {d e : Document} {x y : String} :
    d.fileName (snake (machineId x)) = e.fileName (snake (machineId y)) ↔
      d = e ∧ machineId x = machineId y ∨
      d = .smokeTests ∧ e = .machine ∧ machineId x = "Machine" ∧ machineId y = "testMachine" ∨
      d = .machine ∧ e = .smokeTests ∧ machineId y = "Machine" ∧ machineId x = "testMachine" := by
  constructor
  · intro h
    have hend := ending_eq_of_fileName_eq (suffix_snake_machineId x) (suffix_snake_machineId y) h
    rw [fileName_eq, fileName_eq, hend] at h
    have hnames := (String.append_left_inj _).mp h
    obtain rfl | ⟨rfl, rfl⟩ | ⟨rfl, rfl⟩ := eq_or_of_ending_eq hend
    · exact .inl ⟨rfl, snake_machineId_inj.mp ((String.append_right_inj _).mp hnames)⟩
    · rw [lead, lead, String.empty_append] at hnames
      exact .inr (.inl ⟨rfl, rfl, test_snake_machineId_iff.mp hnames⟩)
    · rw [lead, lead, String.empty_append] at hnames
      exact .inr (.inr ⟨rfl, rfl, test_snake_machineId_iff.mp hnames.symm⟩)
  · rintro (⟨rfl, h⟩ | ⟨rfl, rfl, h⟩ | ⟨rfl, rfl, h⟩)
    · rw [h]
    · rw [fileName_eq, fileName_eq, ← test_snake_machineId_iff.mpr h]
      rfl
    · rw [fileName_eq, fileName_eq, ← test_snake_machineId_iff.mpr h]
      rfl

/-- No file name leads out of its directory. -/
theorem slash_not_mem_fileName (document : Document) (name : String) :
    '/' ∉ (document.fileName (snake name)).toList := by
  have hlead : '/' ∉ document.lead.toList := by cases document <;> decide
  have hending : '/' ∉ document.ending.toList := by cases document <;> decide
  have hname : '/' ∉ (snake name).toList := fun h =>
    absurd (isSnakeChar_of_mem_snake h) (by decide)
  simp [fileName_eq, hlead, hending, hname]

end Document

/-! ## Paths -/

namespace Path

/-- A component as it stands between slashes. -/
def IsPart (part : String) : Prop := part.toList ≠ [] ∧ part.toList ≠ ['.'] ∧ '/' ∉ part.toList

instance : DecidablePred IsPart := fun _ => inferInstanceAs (Decidable (_ ∧ _))

theorem ofText_of_isPart {s : String} (h : IsPart s) : ofText s = ⟨0, [s]⟩ := by
  obtain ⟨hempty, hdot, h⟩ := h
  have hsplit : splitWhere (· == '/') s.toList = [s.toList] := by
    refine splitWhere_of_forall fun c hc => ?_
    rw [beq_eq_false_iff_ne]
    rintro rfl
    exact h hc
  have hfront : s.toList.takeWhile (· == '/') = [] := by
    obtain ⟨c, cs, hcs⟩ := List.exists_cons_of_ne_nil hempty
    have hc : c ≠ '/' := by
      rintro rfl
      exact h (by simp [hcs])
    simp [hcs, hc]
  simp [ofText, partsOf, hsplit, hfront, hempty, hdot]

theorem join_join (p : Path) {a b : String} (ha : ofText a = ⟨0, [a]⟩) (hb : ofText b = ⟨0, [b]⟩) :
    (p.join (ofText a)).join (ofText b) = ⟨p.root, p.parts ++ [a, b]⟩ := by
  rw [ha, hb]
  simp [join]

theorem splitWhere_intercalate {parts : List (List Char)} (h : ∀ part ∈ parts, '/' ∉ part)
    (hsome : parts ≠ []) : splitWhere (· == '/') (['/'].intercalate parts) = parts := by
  have hfree {part : List Char} (hpart : '/' ∉ part) : ∀ c ∈ part, (c == '/') = false := by
    intro c hc
    rw [beq_eq_false_iff_ne]
    rintro rfl
    exact hpart hc
  induction parts with
  | nil => exact absurd rfl hsome
  | cons part parts ih =>
    obtain ⟨hpart, hparts⟩ := List.forall_mem_cons.mp h
    cases parts with
    | nil =>
      rw [List.intercalate_singleton]
      exact splitWhere_of_forall (hfree hpart)
    | cons next parts =>
      rw [List.intercalate_cons_of_ne_nil (by simp), List.append_assoc, List.singleton_append,
        splitWhere_append (hfree hpart) '/' rfl, ih hparts (by simp)]

theorem splitWhere_replicate (n : Nat) (cs : List Char) :
    splitWhere (· == '/') (List.replicate n '/' ++ cs) =
    List.replicate n [] ++ splitWhere (· == '/') cs := by
  induction n with
  | zero => rfl
  | succ n ih => simpa [List.replicate_succ, splitWhere] using ih

/-- A path that is written out and read again is the same path. -/
theorem ofText_toText {p : Path} (hroot : p.root ≤ 2) (hparts : ∀ part ∈ p.parts, IsPart part)
    (hsome : p.parts ≠ []) : ofText p.toText = p := by
  obtain ⟨root, parts⟩ := p
  obtain ⟨first, rest, rfl⟩ := List.exists_cons_of_ne_nil hsome
  generalize hbody : ['/'].intercalate ((first :: rest).map String.toList) = body
  have htext : (toText ⟨root, first :: rest⟩).toList = List.replicate root '/' ++ body := by
    simp [toText, String.toList_intercalate, ← hbody]
  have hstart : body.takeWhile (· == '/') = [] := by
    obtain ⟨hempty, -, hslash⟩ := hparts first List.mem_cons_self
    obtain ⟨c, cs, hcs⟩ := List.exists_cons_of_ne_nil hempty
    have hc : c ≠ '/' := by
      rintro rfl
      exact hslash (by simp [hcs])
    cases rest <;> simp [← hbody, hcs, hc]
  have hslashes : ((List.replicate root '/' ++ body).takeWhile (· == '/')).length = root := by
    rw [List.takeWhile_append_of_pos (by simp), hstart, List.append_nil, List.length_replicate]
  have hsplit : splitWhere (· == '/') (List.replicate root '/' ++ body) =
      List.replicate root [] ++ (first :: rest).map String.toList := by
    have hpieces : splitWhere (· == '/') body = (first :: rest).map String.toList := by
      rw [← hbody]
      refine splitWhere_intercalate (fun part hpart => ?_) (by simp)
      obtain ⟨whole, hwhole, rfl⟩ := List.mem_map.mp hpart
      exact (hparts whole hwhole).2.2
    rw [splitWhere_replicate, hpieces]
  have hkept : ((first :: rest).map String.toList).filter
      (fun part => part != [] && part != ['.']) =
      (first :: rest).map String.toList := by
    refine List.filter_eq_self.mpr fun part hpart => ?_
    obtain ⟨whole, hwhole, rfl⟩ := List.mem_map.mp hpart
    obtain ⟨hempty, hdot, -⟩ := hparts whole hwhole
    simp [hempty, hdot]
  have hdropped : (List.replicate root ([] : List Char)).filter
      (fun part => part != [] && part != ['.']) = [] := by
    simp
  rw [ofText, htext, hslashes, partsOf, hsplit, List.filter_append, hdropped, hkept]
  have hback : ((first :: rest).map String.toList).map String.ofList = first :: rest := by simp
  rw [List.nil_append, hback]
  congr 1
  split_ifs with htwo
  · have : root = 2 := by simpa using htwo
    exact this.symm
  · have : root ≠ 2 := by simpa using htwo
    simp only at hroot
    omega

theorem root_ofText (s : String) : (ofText s).root ≤ 2 := by
  rw [ofText]
  dsimp only
  split_ifs <;> omega

theorem isPart_of_mem_ofText {s part : String} (h : part ∈ (ofText s).parts) : IsPart part := by
  obtain ⟨piece, hpiece, rfl⟩ := List.mem_map.mp h
  obtain ⟨hpiece, hkept⟩ := List.mem_filter.mp hpiece
  simp only [bne_iff_ne, Bool.and_eq_true, ne_eq] at hkept
  refine ⟨by simpa using hkept.1, by simpa using hkept.2, fun hslash => ?_⟩
  rw [String.toList_ofList] at hslash
  simpa using not_mem_of_mem_splitWhere hpiece '/' hslash

theorem exists_intercalate (parts : List (List Char)) :
    ∃ lead, ∀ a b : List Char, ['/'].intercalate (parts ++ [a, b]) = lead ++ (a ++ '/' :: b) := by
  induction parts with
  | nil => exact ⟨[], fun a b => by simp [List.intercalate]⟩
  | cons part parts ih =>
    obtain ⟨lead, hlead⟩ := ih
    refine ⟨part ++ '/' :: lead, fun a b => ?_⟩
    rw [List.cons_append, List.intercalate_cons_of_ne_nil (by simp), hlead]
    simp

/-- Two components below one directory are told by the text of their path. -/
theorem toText_join_inj {p : Path} {a b c d : String} (ha : '/' ∉ a.toList) (hb : '/' ∉ b.toList) :
    (⟨p.root, p.parts ++ [a, b]⟩ : Path).toText = (⟨p.root, p.parts ++ [c, d]⟩ : Path).toText ↔
      a = c ∧ b = d := by
  refine ⟨fun h => ?_, fun ⟨hac, hbd⟩ => by rw [hac, hbd]⟩
  obtain ⟨lead, hlead⟩ := exists_intercalate (p.parts.map String.toList)
  have htext (a b : String) : (⟨p.root, p.parts ++ [a, b]⟩ : Path).toText.toList =
      List.replicate p.root '/' ++ (lead ++ (a.toList ++ '/' :: b.toList)) := by
    rw [← hlead]
    simp [toText, String.toList_intercalate]
  have htexts := congrArg String.toList h
  rw [htext, htext, List.append_cancel_left_eq, List.append_cancel_left_eq,
    List.append_cons_inj_of_notMem ha hb] at htexts
  exact ⟨String.toList_inj.mp htexts.1, String.toList_inj.mp htexts.2.2⟩

end Path

namespace Machine

theorem category_derive (o : DeriveOptions) (x : Diagram) : (derive o x).category = x.category := by
  simp only [derive]

theorem moduleName_derive (o : DeriveOptions) (x : Diagram) :
    (derive o x).moduleName = Identifier.snake (Identifier.machineId x.id) := by
  simp only [derive]

end Machine

namespace Document

open FlowMachine.Identifier

theorem isPart_directory (c : Category) : Path.IsPart c.directory := by
  cases c <;> decide

theorem length_fileName (document : Document) (module : String) :
    3 ≤ (document.fileName module).toList.length := by
  have hending : 3 ≤ document.ending.toList.length := by cases document <;> decide
  rw [fileName_eq, String.toList_append, List.length_append]
  omega

theorem isPart_fileName (document : Document) (name : String) :
    Path.IsPart (document.fileName (snake name)) := by
  have hlong := length_fileName document (snake name)
  refine ⟨fun hempty => ?_, fun hdot => ?_, slash_not_mem_fileName document name⟩
  · simp [hempty] at hlong
  · simp [hdot] at hlong

theorem path_derive (document : Document) (o : DeriveOptions) (x : Diagram) (directory : Path) :
    document.path (Machine.derive o x) directory = ⟨directory.root, directory.parts ++
      [x.category.directory, document.fileName (snake (machineId x.id))]⟩ := by
  have hcategory := Path.ofText_of_isPart (isPart_directory x.category)
  have hfile := Path.ofText_of_isPart (isPart_fileName document (machineId x.id))
  rw [path, Machine.category_derive, Machine.moduleName_derive]
  exact Path.join_join directory hcategory hfile

theorem path_file (d : Document) (o : EmitOptions) (m : Machine) (directory : Path) :
    (d.file o m directory).path = (d.path m directory).toText := by
  simp only [file]

/-- The path of a document tells the directory of the category and the file name. -/
theorem file_path_eq_iff {d e : Document} {o : EmitOptions} {options : DeriveOptions}
    {x y : Diagram}
    {directory : Path} :
    (d.file o (Machine.derive options x) directory).path =
        (e.file o (Machine.derive options y) directory).path ↔
      x.category.directory = y.category.directory ∧
        d.fileName (snake (machineId x.id)) = e.fileName (snake (machineId y.id)) := by
  have hcategory : '/' ∉ x.category.directory.toList := by cases x.category <;> decide
  rw [path_file, path_file, path_derive, path_derive,
    Path.toText_join_inj hcategory (slash_not_mem_fileName _ _)]

end Document

end FlowMachine
