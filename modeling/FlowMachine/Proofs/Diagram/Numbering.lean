import FlowMachine.Proofs.Diagram.WellFormed
import FlowMachine.Proofs.Emit.Places
import FlowMachine.Proofs.Identifier.Display
import Mathlib.Data.List.Nodup

/-!
# Numbers of blocks

The first block of a source has the base name as its id, and each later one has its number behind
it. The number stays where it is in everything that is made out of an id, so display names and
machine ids tell the diagrams of a source apart, whatever the base name is.
-/
namespace FlowMachine

open FlowMachine.Text

namespace Identifier

/-- Digits alone. -/
def IsDigits (cs : List Char) : Prop := ∀ c ∈ cs, c.isDigit = true

theorem isDigits_toDigits (n : Nat) : IsDigits (Nat.toDigits 10 n) := fun _ hc =>
  Nat.isDigit_of_mem_toDigits (by decide) (by decide) hc

theorem toDigits_inj {m n : Nat} : Nat.toDigits 10 m = Nat.toDigits 10 n ↔ m = n := by
  refine ⟨fun h => ?_, fun h => by rw [h]⟩
  have hvalue := congrArg (fun ds => Nat.ofDigitChars 10 ds 0) h
  simpa using hvalue

/-- What holds of a single digit. -/
theorem digit_facts {c : Char} (h : c.isDigit = true) :
    c.toNat < 0x80 ∧ c.toUpper = c ∧ c.toLower = c ∧ isBlank c = false ∧ c ≠ '-' ∧ c ≠ '_' := by
  have hc : c.toNat < 128 := by
    have halnum : c.isAlphanum = true := by
      show (c.isAlpha || c.isDigit) = true
      rw [h, Bool.or_true]
    have := isAlphanum_iff.mp halnum
    omega
  refine ⟨hc, ?_⟩
  revert h
  exact forall_ascii (P := fun c => c.isDigit = true →
    c.toUpper = c ∧ c.toLower = c ∧ isBlank c = false ∧ c ≠ '-' ∧ c ≠ '_') (by decide) hc

/-! ## Display names -/

theorem capitalize_of_isDigits {cs : List Char} (h : IsDigits cs) : capitalize cs = cs := by
  have hupper {c : Char} (hc : c.isDigit = true) : upperChar c = [c] := by
    obtain ⟨hascii, hsame, -⟩ := digit_facts hc
    rw [upperChar, if_pos hascii, hsame]
  have hlower (cs seen : List Char) (hcs : IsDigits cs) : lowerAfter seen cs = cs := by
    induction cs generalizing seen with
    | nil => rfl
    | cons c cs ih =>
      obtain ⟨hc, hrest⟩ := List.forall_mem_cons.mp hcs
      obtain ⟨hascii, -, hsame, -⟩ := digit_facts hc
      have hsigma : ¬ (c.toNat == 0x3A3) = true := by
        rw [beq_iff_eq]
        omega
      rw [lowerAfter, ih _ hrest, if_neg hsigma, lowerChar, if_pos hascii, hsame]
      rfl
  cases cs with
  | nil => rfl
  | cons c cs =>
    obtain ⟨hc, hrest⟩ := List.forall_mem_cons.mp h
    simp [capitalize, upperChars, lowerChars, hupper hc, hlower cs [] hrest]

theorem piecesWhere_of_isDigits {cs : List Char} (h : IsDigits cs) (hsome : cs ≠ []) :
    piecesWhere isJoint cs = [cs] := by
  have hplain : ∀ c ∈ cs, isJoint c = false := by
    intro c hc
    obtain ⟨-, -, -, hblank, hhyphen, hunder⟩ := digit_facts (h c hc)
    simp [isJoint, hblank, hhyphen, hunder]
  exact piecesWhere_of_forall hplain hsome

/-- A number behind an underscore becomes the last word. -/
theorem displayName_append_digits (name : String) {digits : List Char} (h : IsDigits digits)
    (hsome : digits ≠ []) :
    (displayName (String.ofList (name.toList ++ '_' :: digits))).toList =
      (displayName name).toList ++
        (if (piecesWhere isJoint name.toList).isEmpty then [] else [' ']) ++ digits := by
  rw [displayName_eq, displayName_eq, String.toList_ofList, String.toList_ofList,
    String.toList_ofList,
    piecesWhere_append_cons rfl, piecesWhere_of_isDigits h hsome, List.map_append,
    List.map_singleton, capitalize_of_isDigits h, joinChars_append_singleton, List.isEmpty_map]

/-! ## Machine ids -/

/-- The letters and digits of a name in lower case. -/
def letters (cs : List Char) : List Char := (cs.filter Char.isAlphanum).map Char.toLower

theorem length_machineStem_le (cs : List Char) : (machineStem cs).length ≤ (letters cs).length := by
  show ((stripEnd? "machine".toList (letters cs)).getD (letters cs)).length ≤ _
  cases hstrip : stripEnd? "machine".toList (letters cs) with
  | none => exact Nat.le_refl _
  | some rest =>
    rw [stripEnd?_eq_some_iff.mp hstrip, List.length_append]
    exact Nat.le_add_right _ _

/-- A number stays at the end, where it keeps `machine` from being dropped. -/
theorem machineStem_append_digits (cs : List Char) {digits : List Char} (h : IsDigits digits)
    (hsome : digits ≠ []) : machineStem (cs ++ '_' :: digits) = letters cs ++ digits := by
  have hdigits : letters digits = digits := by
    have hstem : IsStem digits := fun c hc => .inr (h c hc)
    rw [letters, filter_of_isStem hstem, map_toLower_of_isStem hstem]
  have hletters : letters (cs ++ '_' :: digits) = letters cs ++ digits := by
    conv_rhs => rw [← hdigits]
    simp [letters]
  have hnone : stripEnd? "machine".toList (letters cs ++ digits) = none := by
    refine Option.eq_none_iff_forall_not_mem.mpr fun rest hrest => ?_
    have hlast := congrArg List.getLast? (stripEnd?_eq_some_iff.mp hrest)
    rw [List.getLast?_append_of_ne_nil _ hsome,
      List.getLast?_append_of_ne_nil _ (by decide)] at hlast
    have hdigit := h 'e' (List.mem_of_getLast? hlast)
    exact absurd hdigit (by decide)
  show (stripEnd? "machine".toList (letters (cs ++ '_' :: digits))).getD
    (letters (cs ++ '_' :: digits)) = _
  rw [hletters, hnone]
  rfl

/-- A machine id tells the stem. -/
theorem machineStem_of_machineId_eq {x y : String} (h : machineId x = machineId y) :
    machineStem x.toList = machineStem y.toList := by
  have hfilter := filter_snake_machineId x
  rwa [h, filter_snake_machineId, List.append_cancel_right_eq, eq_comm] at hfilter

end Identifier

namespace Source

open FlowMachine.Identifier

/-! ## Ids of blocks -/

@[simp] theorem blockId_zero (base : String) : blockId base 0 = base := rfl

theorem blockId_succ (base : String) (n : Nat) :
    blockId base (n + 1) = String.ofList (base.toList ++ '_' :: Nat.toDigits 10 (n + 2)) := by
  rw [← String.toList_inj]
  simp [blockId, toString, Nat.toList_repr]

/-- Texts that have numbers behind one front, but for the first, which is no longer than the
front. -/
theorem injective_of_numbered {form : Nat → List Char} (front : List Char)
    (hfirst : (form 0).length ≤ front.length)
    (hnumber : ∀ n, form (n + 1) = front ++ Nat.toDigits 10 (n + 2)) : Function.Injective form := by
  have hlonger (n : Nat) : form 0 ≠ form (n + 1) := by
    intro h
    have hlength := congrArg List.length h
    have hsome := List.length_pos_of_ne_nil (Nat.toDigits_ne_nil (n := n + 2) (b := 10))
    rw [hnumber, List.length_append] at hlength
    omega
  intro m n h
  cases m with
  | zero =>
    cases n with
    | zero => rfl
    | succ n => exact absurd h (hlonger n)
  | succ m =>
    cases n with
    | zero => exact absurd h.symm (hlonger m)
    | succ n =>
      simp only [hnumber, List.append_cancel_left_eq, toDigits_inj] at h
      omega

theorem displayName_blockId_injective (base : String) :
    Function.Injective fun n => displayName (blockId base n) := by
  have htexts : Function.Injective fun n => (displayName (blockId base n)).toList := by
    refine injective_of_numbered ((displayName base).toList ++
      if (piecesWhere isJoint base.toList).isEmpty then [] else [' ']) ?_ fun n => ?_
    · simp
    · rw [blockId_succ, displayName_append_digits base (isDigits_toDigits _) Nat.toDigits_ne_nil]
  exact fun m n h => htexts (congrArg String.toList h)

theorem machineStem_blockId_succ (base : String) (n : Nat) :
    machineStem (blockId base (n + 1)).toList = letters base.toList ++ Nat.toDigits 10 (n + 2) := by
  rw [blockId_succ, String.toList_ofList,
    machineStem_append_digits _ (isDigits_toDigits _) Nat.toDigits_ne_nil]

theorem machineId_blockId_injective (base : String) :
    Function.Injective fun n => machineId (blockId base n) := by
  have hstems : Function.Injective fun n => machineStem (blockId base n).toList :=
    injective_of_numbered _ (length_machineStem_le base.toList) (machineStem_blockId_succ base)
  exact fun m n h => hstems (machineStem_of_machineId_eq h)

/-! ## Diagrams of a source -/

variable {options : ReadOptions} {path : Option String}

theorem id_of_readBlock {id : String} {b : Block} {d : Diagram}
    (h : (readBlock options id path b).1 = some d) :
    d.id = id ∧ d.displayName = displayName id := by
  simp only [readBlock, Diagram.assemble] at h
  split_ifs at h <;> cases h <;> exact ⟨rfl, rfl⟩

/-- The ids of diagrams are those of blocks, in order, but some blocks may have no diagram. -/
theorem ids_readBlocks (base : String) (index : Nat) (blocks : List Block) :
    ((readBlocks options base path index blocks).1.map (·.id)).Sublist
      ((List.range' index blocks.length).map (blockId base)) := by
  induction blocks generalizing index with
  | nil => simp [readBlocks]
  | cons b rest ih =>
    rw [readBlocks, List.length_cons, List.range'_succ, List.map_cons, List.map_append]
    cases hd : (readBlock options (blockId base index) path b).1 with
    | none => exact (ih _).cons _
    | some d =>
      rw [Option.toList_some, List.map_singleton, (id_of_readBlock hd).1]
      exact (ih _).cons_cons _

theorem ids_read (options : ReadOptions) (text : String) (name path : Option String) :
    ∃ count, ((read options text name path).diagrams.map (·.id)).Sublist
      ((List.range' 0 count).map (blockId (baseName name))) := by
  unfold read
  dsimp only
  split
  · exact ⟨0, List.Sublist.refl _⟩
  · exact ⟨_, ids_readBlocks _ _ _⟩

theorem exists_index_of_mem_read {text : String} {name : Option String} {d : Diagram}
    (h : d ∈ (read options text name path).diagrams) : ∃ n, d.id = blockId (baseName name) n := by
  obtain ⟨count, hids⟩ := ids_read options text name path
  obtain ⟨n, -, hn⟩ := List.mem_map.mp (hids.subset (List.mem_map_of_mem h))
  exact ⟨n, hn.symm⟩

/-- What tells the ids of blocks apart tells the diagrams of a source apart. -/
theorem nodup_map_read {α : Type} {f : String → α} (text : String) (name : Option String)
    (hf : Function.Injective fun n => f (blockId (baseName name) n)) :
    ((read options text name path).diagrams.map fun d => f d.id).Nodup := by
  obtain ⟨count, hids⟩ := ids_read options text name path
  have hnodup : (((List.range' 0 count).map (blockId (baseName name))).map f).Nodup := by
    rw [List.map_map]
    exact List.Nodup.map hf List.nodup_range'
  have hmapped := hnodup.sublist (hids.map f)
  rwa [List.map_map] at hmapped

theorem displayName_of_mem_read {text : String} {name : Option String} {d : Diagram}
    (h : d ∈ (read options text name path).diagrams) : d.displayName = displayName d.id := by
  obtain ⟨b, id, hb⟩ := exists_block_of_mem_read h
  obtain ⟨hid, hname⟩ := id_of_readBlock hb
  rw [hid, hname]

theorem nodup_displayName_read (text : String) (name : Option String) :
    ((read options text name path).diagrams.map (·.displayName)).Nodup := by
  rw [List.map_congr_left fun d hd => displayName_of_mem_read hd]
  exact nodup_map_read text name (displayName_blockId_injective (baseName name))

theorem nodup_machineId_read (text : String) (name : Option String) :
    ((read options text name path).diagrams.map fun d => machineId d.id).Nodup :=
  nodup_map_read text name (machineId_blockId_injective (baseName name))

end Source

end FlowMachine
