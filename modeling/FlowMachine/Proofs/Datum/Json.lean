import FlowMachine.Datum.Json
import Mathlib.Data.List.Basic
import Mathlib.Tactic.SplitIfs

/-!
# Reading back what is written

An indented text is read back as the datum it was written for: a string character by character,
whatever escapes it takes, an integer digit by digit, and a mapping member by member. Only an
integer with more digits than the reader takes is refused, and then the whole text is. What is read
at all has distinct keys.
-/
namespace FlowMachine.Json

open FlowMachine.Text

/-! ## Strings -/

theorem hexValue?_digitChar : ∀ k : Fin 16, hexValue? (Nat.digitChar k) = some k.val := by
  decide

/-- A 16-bit unit takes four digits, the highest first. -/
theorem hexDigits_four {n : Nat} (h : n < 0x10000) : hexDigits 4 n =
    [Nat.digitChar (n / 4096), Nat.digitChar (n / 256 % 16), Nat.digitChar (n / 16 % 16),
      Nat.digitChar (n % 16)] := by
  have hstep (m : Nat) (hm : 16 ≤ m) := Nat.toDigits_of_base_le (b := 16) (by decide) hm
  have hlast (m : Nat) (hm : m < 16) := Nat.toDigits_of_lt_base (b := 16) hm
  have hzero : '0' = Nat.digitChar 0 := rfl
  unfold hexDigits
  rcases Nat.lt_or_ge n 16 with h₁ | h₁
  · rw [hlast n h₁]
    have e₁ : n / 4096 = 0 := by omega
    have e₂ : n / 256 % 16 = 0 := by omega
    have e₃ : n / 16 % 16 = 0 := by omega
    have e₄ : n % 16 = n := by omega
    rw [e₁, e₂, e₃, e₄]
    rfl
  rw [hstep n h₁]
  rcases Nat.lt_or_ge (n / 16) 16 with h₂ | h₂
  · rw [hlast _ h₂]
    have e₁ : n / 4096 = 0 := by omega
    have e₂ : n / 256 % 16 = 0 := by omega
    have e₃ : n / 16 % 16 = n / 16 := by omega
    rw [e₁, e₂, e₃]
    rfl
  rw [hstep _ h₂, Nat.div_div_eq_div_mul]
  rcases Nat.lt_or_ge (n / (16 * 16)) 16 with h₃ | h₃
  · rw [hlast _ h₃]
    have e₁ : n / 4096 = 0 := by omega
    have e₂ : n / 256 % 16 = n / (16 * 16) := by omega
    rw [e₁, e₂]
    rfl
  rw [hstep _ h₃, Nat.div_div_eq_div_mul, hlast _ (by omega)]
  rfl

/-- The digits of a unit spell the unit. -/
theorem exists_hexDigits {n : Nat} (h : n < 0x10000) :
    ∃ a b c d, hexDigits 4 n = [a, b, c, d] ∧ unitValue? a b c d = some n := by
  refine ⟨_, _, _, _, hexDigits_four h, ?_⟩
  have hvalue (k : Nat) (hk : k < 16) : hexValue? (Nat.digitChar k) = some k :=
    hexValue?_digitChar ⟨k, hk⟩
  simp only [unitValue?, hvalue (n / 4096) (by omega), hvalue (n / 256 % 16) (by omega),
    hvalue (n / 16 % 16) (by omega), hvalue (n % 16) (by omega), Option.some.injEq]
  omega

/-- A unit that opens no pair is a character of its own, whatever follows. -/
theorem readString_unitEscape {n : Nat} (h : n < 0xD800 ∨ 0xE000 ≤ n) (hn : n < 0x10000)
    (cs : List Char) :
    readString (unitEscape n ++ cs) = (readString cs).map fun r => (Char.ofNat n :: r.1, r.2) := by
  obtain ⟨a, b, c, d, hdigits, hvalue⟩ := exists_hexDigits hn
  have hunit : ofUnit n = Char.ofNat n := by
    simp only [ofUnit, Bool.and_eq_true, decide_eq_true_eq]
    rw [if_neg (by omega)]
  have halone (low : Nat) : joinUnits? n low = none := by
    simp only [joinUnits?, Bool.and_eq_true, decide_eq_true_eq]
    rw [if_neg (by omega)]
  simp only [unitEscape, hdigits, List.cons_append, List.nil_append]
  by_cases hpair : ∃ e f g i rest, cs = '\\' :: 'u' :: e :: f :: g :: i :: rest
  · obtain ⟨e, f, g, i, rest, rfl⟩ := hpair
    have hnone : (unitValue? e f g i).bind (joinUnits? n) = none :=
      Option.bind_eq_none_iff.mpr fun low _ => halone low
    rw [readString, hvalue]
    simp only [hnone, hunit]
  · rw [readString, hvalue]
    · simp only [hunit]
    · intro e f g i rest hcs
      exact hpair ⟨e, f, g, i, rest, hcs⟩

/-- Two units that make a pair are one character. -/
theorem readString_pair {high low : Nat} (hhigh : 0xD800 ≤ high ∧ high < 0xDC00)
    (hlow : 0xDC00 ≤ low ∧ low < 0xE000) (cs : List Char) :
    readString (unitEscape high ++ unitEscape low ++ cs) = (readString cs).map fun r =>
      (Char.ofNat (0x10000 + (high - 0xD800) * 0x400 + (low - 0xDC00)) :: r.1, r.2) := by
  obtain ⟨a, b, c, d, hdigits, hvalue⟩ := exists_hexDigits (n := high) (by omega)
  obtain ⟨e, f, g, i, hdigits', hvalue'⟩ := exists_hexDigits (n := low) (by omega)
  have hjoin : joinUnits? high low =
      some (Char.ofNat (0x10000 + (high - 0xD800) * 0x400 + (low - 0xDC00))) := by
    simp [joinUnits?, hhigh, hlow]
  simp only [unitEscape, hdigits, hdigits', List.cons_append, List.nil_append]
  rw [readString, hvalue, hvalue']
  simp only [Option.bind_some, hjoin]

/-- A character is no half of a pair. -/
theorem toNat_cases (c : Char) : c.toNat < 0xD800 ∨ 0xE000 ≤ c.toNat ∧ c.toNat < 0x110000 := by
  have hvalid := c.valid
  simp only [UInt32.isValidChar, Nat.isValidChar] at hvalid
  have hnat : c.toNat = c.val.toNat := rfl
  omega

/-- A character is read as it was written, whatever follows. -/
theorem readString_escapeChar (c : Char) (cs : List Char) :
    readString (escapeChar c ++ cs) = (readString cs).map fun r => (c :: r.1, r.2) := by
  have hvalid := toNat_cases c
  have hchar {n : Nat} (h : n = c.toNat) : Char.ofNat n = c := by rw [h, Char.ofNat_toNat]
  unfold escapeChar
  split_ifs with h₁ h₂ h₃ h₄ h₅ h₆ h₇ h₈
  · rcases Bool.or_eq_true_iff.mp h₁ with h | h <;> obtain rfl := eq_of_beq h <;> rfl
  · obtain rfl := eq_of_beq h₂
    rfl
  · obtain rfl := eq_of_beq h₃
    rfl
  · obtain rfl := eq_of_beq h₄
    rfl
  · rw [← hchar (eq_of_beq h₅).symm]
    rfl
  · rw [← hchar (eq_of_beq h₆).symm]
    rfl
  · simp only [Bool.or_eq_true, beq_iff_eq, not_or] at h₁
    simp only [Bool.and_eq_true, decide_eq_true_eq] at h₇
    rw [List.singleton_append, readString]
    · rw [if_neg (by omega)]
    all_goals simp_all
  · rw [readString_unitEscape (by omega) h₈, Char.ofNat_toNat]
  · rw [readString_pair (by omega) (by omega), hchar (by omega)]

theorem readString_stringChars (cs rest : List Char) :
    readString (cs.flatMap escapeChar ++ '"' :: rest) = some (cs, rest) := by
  induction cs with
  | nil => rfl
  | cons c cs ih =>
    rw [List.flatMap_cons, List.append_assoc, readString_escapeChar, ih, Option.map_some]

/-! ## Integers -/

/-- What stands behind an integer does not continue it. -/
def Stops (rest : List Char) : Prop :=
  ∀ c ∈ rest.head?, c.isDigit = false ∧ c ≠ '.' ∧ c ≠ 'e' ∧ c ≠ 'E'

theorem digitsValue_toDigits (n : Nat) : digitsValue (Nat.toDigits 10 n) = n := by
  have hfold : digitsValue = fun cs => Nat.ofDigitChars 10 cs 0 := by
    funext cs
    simp only [digitsValue, Nat.ofDigitChars_eq_foldl, Nat.mul_comm]
    rfl
  rw [hfold]
  exact Nat.ofDigitChars_ten_toDigits

/-- Only zero is written with a zero in front. -/
theorem head?_toDigits {n : Nat} (h : 0 < n) : (Nat.toDigits 10 n).head? ≠ some '0' := by
  induction n using Nat.strongRecOn with
  | ind n ih =>
    rcases Nat.lt_or_ge n 10 with hn | hn
    · rw [Nat.toDigits_of_lt_base hn]
      have hdigit : ∀ k : Fin 10, 0 < k.val → [Nat.digitChar k].head? ≠ some '0' := by decide
      exact hdigit ⟨n, hn⟩ h
    · rw [Nat.toDigits_of_base_le (by decide) hn, List.head?_append_of_ne_nil _ Nat.toDigits_ne_nil]
      exact ih (n / 10) (by omega) (by omega)

theorem takeWhile_toDigits (n : Nat) {rest : List Char} (h : Stops rest) :
    (Nat.toDigits 10 n ++ rest).takeWhile Char.isDigit = Nat.toDigits 10 n := by
  have hdigits : ∀ c ∈ Nat.toDigits 10 n, c.isDigit = true := fun c hc =>
    Nat.isDigit_of_mem_toDigits (by decide) (by decide) hc
  rw [List.takeWhile_append_of_pos hdigits]
  cases rest with
  | nil => simp
  | cons c rest =>
    have := (h c rfl).1
    simp [this]

/-- An integer is read back, unless it has too many digits. -/
theorem readNumber_toDigits (negative : Bool) (n : Nat) {rest : List Char} (h : Stops rest) :
    readNumber negative (Nat.toDigits 10 n ++ rest) =
      if (Nat.toDigits 10 n).length ≤ maxDigits then
        some (.int (if negative then -(n : Int) else n), rest)
      else none := by
  have hdigits : (if (Nat.toDigits 10 n ++ rest).head? == some '0' then ['0']
      else (Nat.toDigits 10 n ++ rest).takeWhile Char.isDigit) = Nat.toDigits 10 n := by
    rw [List.head?_append_of_ne_nil _ Nat.toDigits_ne_nil, takeWhile_toDigits n h]
    rcases Nat.eq_zero_or_pos n with rfl | hn
    · rfl
    · rw [if_neg (by simpa using head?_toDigits hn)]
  have hfraction : readFraction rest = none := by
    unfold readFraction
    split
    · exact absurd rfl (h '.' rfl).2.1
    · rfl
  have hpower : readPower rest = none := by
    unfold readPower
    cases rest with
    | nil => rfl
    | cons c rest =>
      obtain ⟨-, -, he, hE⟩ := h c rfl
      simp [he, hE]
  unfold readNumber
  simp only [hdigits, List.drop_left, hfraction, hpower, Option.map_none, Option.getD_none,
    digitsValue_toDigits, List.isEmpty_iff, Nat.toDigits_ne_nil, if_false, Option.isNone_none,
    Bool.and_self, if_true]
  split_ifs <;> first | rfl | omega

/-- The digits of an integer, without its sign. -/
def digitsOf (n : Int) : List Char := Nat.toDigits 10 n.natAbs

theorem toList_toString_int (n : Int) :
    (toString n).toList = if 0 ≤ n then digitsOf n else '-' :: digitsOf n := by
  rw [Int.toString_eq_repr, Int.repr_eq_if]
  split_ifs with h
  · rw [Nat.toList_repr, digitsOf]
    congr 1
    omega
  · rw [String.toList_append, Nat.toList_repr, digitsOf]
    have : (-n).toNat = n.natAbs := by omega
    rw [this]
    rfl

theorem exists_digitsOf (n : Int) : ∃ c cs, digitsOf n = c :: cs ∧ c.isDigit = true := by
  obtain ⟨c, cs, h⟩ := List.exists_cons_of_ne_nil (Nat.toDigits_ne_nil (n := n.natAbs) (b := 10))
  refine ⟨c, cs, h, Nat.isDigit_of_mem_toDigits (b := 10) (n := n.natAbs) (by decide)
    (by decide) ?_⟩
  rw [h]
  exact List.mem_cons_self

/-- A number is no word. -/
theorem readConstant_of_isDigit {c : Char} (h : c.isDigit = true) (cs : List Char) :
    readConstant (c :: cs) = none ∧ readConstant ('-' :: c :: cs) = none := by
  have hne {w : Char} (hw : w.isDigit = false) : (w == c) = false := by
    rw [beq_eq_false_iff_ne]
    rintro rfl
    rw [h] at hw
    cases hw
  have hn := hne (w := 'n') rfl
  have ht := hne (w := 't') rfl
  have hf := hne (w := 'f') rfl
  have hN := hne (w := 'N') rfl
  have hI := hne (w := 'I') rfl
  have hminus := hne (w := '-') rfl
  constructor <;>
    simp [readConstant, constants, Text.behind?, hn, ht, hf, hN, hI, hminus]

theorem readDatum_of_isDigit {c : Char} (h : c.isDigit = true) (fuel : Nat) (cs : List Char) :
    readDatum (fuel + 1) (c :: cs) = readNumber false (c :: cs) ∧
      readDatum (fuel + 1) ('-' :: c :: cs) = readNumber true (c :: cs) := by
  obtain ⟨hplain, hsigned⟩ := readConstant_of_isDigit h cs
  constructor
  · rw [readDatum, hplain]
    all_goals
      intro rest hrest
      obtain ⟨rfl, -⟩ := List.cons.inj hrest
      exact absurd h (by decide)
  · rw [readDatum, hsigned]

theorem readDatum_int (n : Int) (fuel : Nat) {rest : List Char} (h : Stops rest) :
    readDatum (fuel + 1) ((toString n).toList ++ rest) =
      if (digitsOf n).length ≤ maxDigits then some (.int n, rest) else none := by
  obtain ⟨c, cs, hdigits, hc⟩ := exists_digitsOf n
  have hread (negative : Bool) := readNumber_toDigits negative n.natAbs h
  change ∀ negative, readNumber negative (digitsOf n ++ rest) = if (digitsOf n).length ≤ maxDigits
    then some (.int (if negative then -(n.natAbs : Int) else n.natAbs), rest) else none at hread
  rw [toList_toString_int]
  by_cases hn : 0 ≤ n
  · have hvalue : (n.natAbs : Int) = n := by omega
    rw [if_pos hn, hdigits, List.cons_append, (readDatum_of_isDigit hc fuel _).1,
      ← List.cons_append, ← hdigits, hread, if_neg Bool.false_ne_true, hvalue]
  · have hvalue : -(n.natAbs : Int) = n := by omega
    rw [if_neg hn, hdigits, List.cons_append, List.cons_append, (readDatum_of_isDigit hc fuel _).2,
      ← List.cons_append, ← hdigits, hread, if_pos rfl, hvalue]

/-! ## Mappings -/

mutual

/-- Every integer in a datum has few enough digits to be read back. -/
def fits : Datum → Bool
  | .int n => (digitsOf n).length ≤ maxDigits
  | .list items => fitsItems items
  | .map entries => fitsEntries entries
  | _ => true

def fitsItems : List Datum → Bool
  | [] => true
  | d :: rest => fits d && fitsItems rest

def fitsEntries : List (Key × Datum) → Bool
  | [] => true
  | (_, d) :: rest => fits d && fitsEntries rest

end

theorem fits_int_of_le {m n : Int} (h : n.natAbs ≤ m.natAbs) (hm : fits (.int m) = true) :
    fits (.int n) = true := by
  rw [fits, digitsOf, decide_eq_true_eq, Nat.length_toDigits_le_iff (by decide) (by decide)] at hm ⊢
  exact Nat.lt_of_le_of_lt h hm

/-- The indented text of a datum starts with something to read, holds no carriage return, and is
read back to its end wherever it stands, unless an integer in it is too long. -/
structure ReadsBack (d : Datum) : Prop where
  front : ∀ depth, ∃ c cs, (indented depth d).toList = c :: cs ∧ isSpace c = false
  no_return : ∀ depth, '\r' ∉ (indented depth d).toList
  read : ∀ depth fuel rest, (indented depth d).toList.length < fuel → Stops rest →
    readDatum fuel ((indented depth d).toList ++ rest) = if fits d then some (d, rest) else none

theorem not_mem_escapeChar (c : Char) : '\r' ∉ escapeChar c := by
  have hunit (n : Nat) (hn : n < 0x10000) : '\r' ∉ unitEscape n := by
    have hdigit : ∀ k : Fin 16, Nat.digitChar k ≠ '\r' := by decide
    have hne (k : Nat) (hk : k < 16) : '\r' ≠ Nat.digitChar k := (hdigit ⟨k, hk⟩).symm
    simp only [unitEscape, hexDigits_four hn, List.mem_cons, List.not_mem_nil, or_false, not_or]
    exact ⟨by decide, by decide, hne _ (by omega), hne _ (by omega), hne _ (by omega),
      hne _ (by omega)⟩
  have hvalid := toNat_cases c
  unfold escapeChar
  split_ifs with h₁ h₂ h₃ h₄ h₅ h₆ h₇ h₈
  · simp only [List.mem_cons, List.not_mem_nil, or_false, not_or]
    refine ⟨by decide, ?_⟩
    rintro rfl
    exact absurd h₁ (by decide)
  · decide
  · decide
  · decide
  · decide
  · decide
  · simpa using fun h => h₃ (by simp [← h])
  · exact hunit _ h₈
  · rw [List.mem_append, not_or]
    exact ⟨hunit _ (by omega), hunit _ (by omega)⟩

theorem no_return_string (s : String) : '\r' ∉ (string s).toList := by
  simp only [string, stringChars, String.toList_ofList, List.cons_append, List.mem_cons,
    List.mem_append, List.mem_flatMap, List.not_mem_nil, or_false, not_or, not_exists, not_and]
  exact ⟨by decide, fun c _ => not_mem_escapeChar c, by decide⟩

theorem readsBack_text (s : String) : ReadsBack (.text s) where
  front _ := ⟨'"', s.toList.flatMap escapeChar ++ ['"'],
    by simp [indented, scalar, string, stringChars], rfl⟩
  no_return _ := no_return_string s
  read depth fuel rest hfuel _ := by
    obtain ⟨fuel, rfl⟩ := Nat.exists_eq_succ_of_ne_zero (Nat.ne_zero_of_lt hfuel)
    have htext : (indented depth (.text s)).toList ++ rest =
        '"' :: (s.toList.flatMap escapeChar ++ '"' :: rest) := by
      simp [indented, scalar, string, stringChars]
    rw [htext, readDatum, readString_stringChars]
    simp [fits]

theorem readsBack_int (n : Int) : ReadsBack (.int n) := by
  have htext (depth : Nat) : (indented depth (.int n)).toList = (toString n).toList := by
    simp [indented, scalar, Datum.literal]
  obtain ⟨c, cs, hdigits, hc⟩ := exists_digitsOf n
  refine ⟨fun depth => ?_, fun depth => ?_, fun depth fuel rest hfuel hrest => ?_⟩
  · rw [htext, toList_toString_int, hdigits]
    split_ifs
    · refine ⟨c, cs, rfl, ?_⟩
      simp only [isSpace, Bool.or_eq_false_iff, beq_eq_false_iff_ne]
      refine ⟨⟨⟨?_, ?_⟩, ?_⟩, ?_⟩ <;> rintro rfl <;> exact absurd hc (by decide)
    · exact ⟨'-', c :: cs, rfl, rfl⟩
  · have hreturn : '\r' ∉ digitsOf n := fun h =>
      absurd (Nat.isDigit_of_mem_toDigits (by decide) (by decide) h) (by decide)
    rw [htext, toList_toString_int]
    split_ifs
    · exact hreturn
    · simp [hreturn]
  · obtain ⟨fuel, rfl⟩ := Nat.exists_eq_succ_of_ne_zero (Nat.ne_zero_of_lt hfuel)
    rw [htext, readDatum_int n fuel hrest]
    simp [fits]

theorem skipSpace_newline (k : Nat) (cs : List Char) :
    skipSpace ((newline k).toList ++ cs) = skipSpace cs := by
  have hspaces : ∀ c ∈ (newline k).toList, isSpace c = true := by
    intro c hc
    simp only [newline, String.toList_ofList, List.mem_cons, List.mem_replicate] at hc
    rcases hc with rfl | ⟨-, rfl⟩ <;> rfl
  exact List.dropWhile_append_of_pos hspaces

theorem skipSpace_of_isSpace {c : Char} (h : isSpace c = false) (cs : List Char) :
    skipSpace (c :: cs) = c :: cs := by
  simp [skipSpace, h]

/-- The text of one member of a mapping. -/
def memberChars (depth : Nat) (field : String × Datum) : List Char :=
  '"' :: (field.1.toList.flatMap escapeChar ++
    '"' :: ':' :: ' ' :: (indented depth field.2).toList)

/-- The text of the members of a mapping, one in a line. -/
def membersChars (depth : Nat) (fields : List (String × Datum)) : List Char :=
  List.intercalate (',' :: (newline depth).toList) (fields.map (memberChars depth))

theorem membersChars_cons (depth : Nat) (field next : String × Datum)
    (fields : List (String × Datum)) :
    membersChars depth (field :: next :: fields) =
      memberChars depth field ++
        ',' :: ((newline depth).toList ++ membersChars depth (next :: fields)) := by
  simp [membersChars, List.intercalate]

theorem toList_indented_ofFields (depth : Nat) {fields : List (String × Datum)} (h : fields ≠ []) :
    (indented depth (.ofFields fields)).toList =
      '{' :: ((newline (depth + 1)).toList ++ membersChars (depth + 1) fields ++
        (newline depth).toList ++ ['}']) := by
  have hentries : indentedEntries (depth + 1) (fields.map fun field => (.text field.1, field.2)) =
      fields.map fun field => string field.1 ++ ": " ++ indented (depth + 1) field.2 := by
    clear h
    induction fields with
    | nil => rfl
    | cons field fields ih => simp only [List.map_cons, indentedEntries, keyText, ih]
  have hmembers : (fields.map fun field =>
      string field.1 ++ ": " ++ indented (depth + 1) field.2).map String.toList =
        fields.map (memberChars (depth + 1)) := by
    rw [List.map_map]
    refine List.map_congr_left fun field _ => ?_
    simp [memberChars, string, stringChars]
  rw [Datum.ofFields, indented, hentries, enclose, if_neg (by simpa using h)]
  simp only [String.toList_append, String.toList_intercalate, hmembers]
  simp [membersChars]

theorem fits_ofFields (fields : List (String × Datum)) :
    fits (.ofFields fields) = fields.all (fits ·.2) := by
  rw [Datum.ofFields, fits]
  induction fields with
  | nil => rfl
  | cons field fields ih => simp only [List.map_cons, fitsEntries, ih, List.all_cons]

/-- One member is read up to what stands behind its value. -/
theorem readMembers_member {field : String × Datum} (h : ReadsBack field.2) {depth fuel : Nat}
    {rest : List Char} (hfuel : (memberChars depth field).length ≤ fuel) (hrest : Stops rest) :
    readMembers (fuel + 1) (memberChars depth field ++ rest) =
      if fits field.2 then
        match skipSpace rest with
        | '}' :: behind => some ([(.text field.1, field.2)], behind)
        | ',' :: more => (readMembers fuel (skipSpace more)).map fun r =>
          ((.text field.1, field.2) :: r.1, r.2)
        | _ => none
      else none := by
  have htext : memberChars depth field ++ rest = '"' :: (field.1.toList.flatMap escapeChar ++
      '"' :: (':' :: ' ' :: ((indented depth field.2).toList ++ rest))) := by
    simp [memberChars]
  have hcolon (cs : List Char) : skipSpace (':' :: cs) = ':' :: cs := skipSpace_of_isSpace rfl cs
  have hvalue : skipSpace (' ' :: ((indented depth field.2).toList ++ rest)) =
      (indented depth field.2).toList ++ rest := by
    obtain ⟨c, cs, hfront, hc⟩ := h.front depth
    rw [hfront, List.cons_append]
    exact skipSpace_of_isSpace hc _
  have hlength : (indented depth field.2).toList.length < fuel := by
    simp only [memberChars, List.length_cons, List.length_append] at hfuel
    omega
  rw [htext, readMembers, readString_stringChars]
  simp only [hcolon, hvalue, h.read depth fuel rest hlength hrest, String.ofList_toList]
  cases fits field.2 <;> rfl

theorem stops_comma (cs : List Char) : Stops (',' :: cs) := by
  rintro c hc
  obtain rfl : ',' = c := by simpa using hc
  decide

theorem stops_newline (depth : Nat) (cs : List Char) : Stops ((newline depth).toList ++ cs) := by
  rintro c hc
  obtain rfl : '\n' = c := by simpa [newline] using hc
  decide

theorem exists_membersChars (depth : Nat) {fields : List (String × Datum)} (h : fields ≠ []) :
    ∃ tail, membersChars depth fields = '"' :: tail := by
  match fields, h with
  | [field], _ => exact ⟨_, by simp [membersChars, List.intercalate, memberChars]; rfl⟩
  | field :: next :: fields, _ =>
    exact ⟨_, by rw [membersChars_cons, memberChars, List.cons_append]⟩

theorem readMembers_fields {fields : List (String × Datum)} (hne : fields ≠ [])
    (h : ∀ field ∈ fields, ReadsBack field.2) (depth outer : Nat) {fuel : Nat} (rest : List Char)
    (hfuel : (membersChars depth fields).length < fuel) :
    readMembers fuel (membersChars depth fields ++ ((newline outer).toList ++ '}' :: rest)) =
      if fields.all (fits ·.2) then
        some (fields.map fun field => (.text field.1, field.2), rest)
      else none := by
  induction fields generalizing fuel with
  | nil => exact absurd rfl hne
  | cons field fields ih =>
    obtain ⟨fuel, rfl⟩ := Nat.exists_eq_succ_of_ne_zero (Nat.ne_zero_of_lt hfuel)
    have hfield := h field List.mem_cons_self
    cases fields with
    | nil =>
      have hsingle : membersChars depth [field] = memberChars depth field := by
        simp [membersChars, List.intercalate]
      rw [hsingle] at hfuel ⊢
      rw [readMembers_member hfield (by omega) (stops_newline _ _), skipSpace_newline,
        skipSpace_of_isSpace rfl]
      simp
    | cons next fields =>
      have hclose (cs : List Char) : skipSpace (',' :: cs) = ',' :: cs :=
        skipSpace_of_isSpace rfl cs
      have hnext (cs : List Char) :
          skipSpace (membersChars depth (next :: fields) ++ cs) =
            membersChars depth (next :: fields) ++ cs := by
        obtain ⟨tail, htail⟩ := exists_membersChars depth (List.cons_ne_nil next fields)
        rw [htail, List.cons_append]
        exact skipSpace_of_isSpace rfl _
      rw [membersChars_cons] at hfuel ⊢
      simp only [List.length_append, List.length_cons] at hfuel
      rw [List.append_assoc, List.cons_append, readMembers_member hfield (by omega) (stops_comma _),
        hclose]
      simp only [List.append_assoc, skipSpace_newline, hnext]
      rw [ih (by simp) (fun f hf => h f (List.mem_cons_of_mem _ hf)) (by omega),
        List.all_cons (l := next :: fields)]
      cases fits field.2 <;> cases (next :: fields).all (fits ·.2) <;> rfl

theorem same_text (a b : String) : (Key.text a).same (.text b) = (a == b) := by
  simp [Key.same, Key.ratio?]

/-- Distinct keys stay as they are when they are put into a mapping one by one. -/
theorem foldl_insert_fields {fields : List (String × Datum)} (h : (fields.map Prod.fst).Nodup) :
    (fields.map fun field => (Key.text field.1, field.2)).foldl
      (fun entries m => Datum.insert entries m.1 m.2) [] =
        fields.map fun field => (Key.text field.1, field.2) := by
  have hstep (front : List (String × Datum)) :
      ((front ++ fields).map Prod.fst).Nodup →
      (fields.map fun field => (Key.text field.1, field.2)).foldl
        (fun entries m => Datum.insert entries m.1 m.2)
          (front.map fun field => (Key.text field.1, field.2)) =
        (front ++ fields).map fun field => (Key.text field.1, field.2) := by
    clear h
    induction fields generalizing front with
    | nil => simp
    | cons field fields ih =>
      intro hnodup
      have hnew : (front.map fun f => (Key.text f.1, f.2)).any (·.1.same (.text field.1)) =
          false := by
        rw [List.any_eq_false]
        intro entry hentry
        obtain ⟨f, hf, rfl⟩ := List.mem_map.mp hentry
        rw [same_text, beq_iff_eq]
        rintro hkey
        have hdisjoint := (List.nodup_append.mp (List.map_append ▸ hnodup)).2.2
        exact hdisjoint f.1 (List.mem_map_of_mem hf) field.1 List.mem_cons_self hkey
      rw [List.map_cons, List.foldl_cons, Datum.insert, if_neg (by rw [hnew]; decide)]
      have := ih (front ++ [field])
      simpa using this (by simpa using hnodup)
  simpa using hstep [] (by simpa using h)

theorem readsBack_empty : ReadsBack (.ofFields []) := by
  have htext (depth : Nat) : (indented depth (.ofFields [])).toList = ['{', '}'] := by
    simp [Datum.ofFields, indented, indentedEntries, enclose]
  refine ⟨fun depth => ⟨'{', ['}'], htext depth, rfl⟩, fun depth => ?_,
    fun depth fuel rest hfuel _ => ?_⟩
  · rw [htext]
    decide
  · obtain ⟨fuel, rfl⟩ := Nat.exists_eq_succ_of_ne_zero (Nat.ne_zero_of_lt hfuel)
    rw [htext, fits_ofFields, List.cons_append, List.singleton_append, readDatum,
      skipSpace_of_isSpace rfl]
    rfl

theorem no_return_membersChars {fields : List (String × Datum)}
    (h : ∀ field ∈ fields, ReadsBack field.2) (depth : Nat) : '\r' ∉ membersChars depth fields := by
  have hnewline : '\r' ∉ (newline depth).toList := by simp [newline]
  have hmember : ∀ field ∈ fields, '\r' ∉ memberChars depth field := by
    intro field hfield
    have hkey := no_return_string field.1
    have hvalue := (h field hfield).no_return depth
    simp only [string, stringChars, String.toList_ofList] at hkey
    simp_all [memberChars]
  induction fields with
  | nil => simp [membersChars, List.intercalate]
  | cons field fields ih =>
    have hfirst := hmember field List.mem_cons_self
    cases fields with
    | nil => simpa [membersChars, List.intercalate] using hfirst
    | cons next fields =>
      have hrest := ih (fun f hf => h f (List.mem_cons_of_mem _ hf))
        fun f hf => hmember f (List.mem_cons_of_mem _ hf)
      simp only [membersChars_cons, List.mem_append, List.mem_cons, not_or]
      exact ⟨hfirst, by decide, hnewline, hrest⟩

/-- A mapping with distinct keys is read back when its values are. -/
theorem readsBack_ofFields {fields : List (String × Datum)} (hkeys : (fields.map Prod.fst).Nodup)
    (h : ∀ field ∈ fields, ReadsBack field.2) : ReadsBack (.ofFields fields) := by
  by_cases hne : fields = []
  · exact hne ▸ readsBack_empty
  have htext (depth : Nat) := toList_indented_ofFields depth hne
  refine ⟨fun depth => ⟨_, _, htext depth, rfl⟩, fun depth => ?_, fun depth fuel rest hfuel _ => ?_⟩
  · rw [htext]
    simp [no_return_membersChars h, newline]
  · obtain ⟨fuel, rfl⟩ := Nat.exists_eq_succ_of_ne_zero (Nat.ne_zero_of_lt hfuel)
    rw [htext] at hfuel ⊢
    simp only [List.length_cons, List.length_append] at hfuel
    have hread := readMembers_fields hne h (depth + 1) depth rest
      (show _ < fuel by omega)
    obtain ⟨tail, hfront⟩ := exists_membersChars (depth + 1) hne
    have hskip : skipSpace ((newline (depth + 1)).toList ++ membersChars (depth + 1) fields ++
        (newline depth).toList ++ ['}'] ++ rest) =
          membersChars (depth + 1) fields ++ ((newline depth).toList ++ '}' :: rest) := by
      simp only [List.append_assoc, skipSpace_newline, List.singleton_append]
      rw [hfront, List.cons_append]
      exact skipSpace_of_isSpace rfl _
    rw [List.cons_append, readDatum, hskip, fits_ofFields]
    split
    · rename_i heq
      rw [hfront] at heq
      exact absurd (List.cons.inj heq).1 (by decide)
    · rw [hread]
      cases fields.all (fits ·.2) with
      | false => rfl
      | true => simp only [if_true, Option.map_some, foldl_insert_fields hkeys, Datum.ofFields]

/-- What is written over several lines is read back whole, unless an integer in it is too long. -/
theorem read?_pretty {d : Datum} (h : ReadsBack d) :
    read? (pretty d).toList = if fits d then some d else none := by
  obtain ⟨c, cs, hfront, hc⟩ := h.front 0
  have hskip : skipSpace (indented 0 d).toList = (indented 0 d).toList ++ [] := by
    rw [List.append_nil, hfront]
    exact skipSpace_of_isSpace hc cs
  have hstops : Stops [] := by
    rintro c hc
    cases hc
  rw [pretty, read?, hskip, h.read 0 _ [] (Nat.lt_succ_self _) hstops]
  cases fits d <;> rfl

/-! ## Keys of data that are read -/

/-- A mapping, and every mapping that is a value in it, has distinct texts for keys. -/
inductive Tidy : Datum → Prop where
  | other {d : Datum} (h : ∀ entries, d ≠ .map entries) : Tidy d
  | map {fields : List (String × Datum)} (keys : (fields.map Prod.fst).Nodup)
    (values : ∀ field ∈ fields, Tidy field.2) :
    Tidy (.map (fields.map fun field => (.text field.1, field.2)))

theorem tidy_insert {entries : List (Key × Datum)} (h : Tidy (.map entries)) (key : String)
    {value : Datum} (hvalue : Tidy value) :
    Tidy (.map (Datum.insert entries (.text key) value)) := by
  cases h with
  | other h => exact absurd rfl (h entries)
  | @map fields keys values =>
    unfold Datum.insert
    split_ifs with hthere
    · have hset : ((fields.map fun field => (Key.text field.1, field.2)).map fun entry =>
          if entry.1.same (.text key) then (entry.1, value) else entry) =
          (fields.map fun field => (field.1, if field.1 = key then value else field.2)).map
            fun field => (Key.text field.1, field.2) := by
        simp only [List.map_map]
        refine List.map_congr_left fun field _ => ?_
        simp only [Function.comp, same_text, beq_iff_eq]
        split_ifs <;> rfl
      rw [hset]
      refine .map (by simpa [List.map_map, Function.comp_def] using keys) ?_
      intro field hfield
      obtain ⟨old, hold, rfl⟩ := List.mem_map.mp hfield
      show Tidy (if old.1 = key then value else old.2)
      split_ifs
      · exact hvalue
      · exact values old hold
    · have happend : (fields.map fun field => (Key.text field.1, field.2)) ++
          [(Key.text key, value)] =
          (fields ++ [(key, value)]).map fun field => (Key.text field.1, field.2) := by simp
      rw [happend]
      refine .map ?_ ?_
      · have hnew : key ∉ fields.map Prod.fst := by
          intro hkey
          obtain ⟨field, hfield, rfl⟩ := List.mem_map.mp hkey
          refine hthere (List.any_eq_true.mpr ⟨_, List.mem_map_of_mem hfield, ?_⟩)
          simp [same_text]
        rw [List.map_append, List.nodup_append]
        exact ⟨keys, by simp, fun a ha b hb => by
          obtain rfl : b = key := by simpa using hb
          rintro rfl
          exact hnew ha⟩
      · intro field hfield
        rcases List.mem_append.mp hfield with hfield | hfield
        · exact values field hfield
        · obtain rfl : field = (key, value) := by simpa using hfield
          exact hvalue

theorem tidy_foldl_insert {members : List (Key × Datum)}
    (h : ∀ m ∈ members, ∃ key, m.1 = .text key ∧ Tidy m.2) {entries : List (Key × Datum)}
    (hentries : Tidy (.map entries)) :
    Tidy (.map (members.foldl (fun entries m => Datum.insert entries m.1 m.2) entries)) := by
  induction members generalizing entries with
  | nil => exact hentries
  | cons m members ih =>
    obtain ⟨key, hkey, hvalue⟩ := h m List.mem_cons_self
    rw [List.foldl_cons, hkey]
    exact ih (fun m hm => h m (List.mem_cons_of_mem _ hm)) (tidy_insert hentries key hvalue)

theorem tidy_of_readNumber {negative : Bool} {cs rest : List Char} {d : Datum}
    (h : readNumber negative cs = some (d, rest)) : Tidy d := by
  unfold readNumber at h
  simp only at h
  split_ifs at h <;> cases h <;> exact .other fun _ h => by cases h

theorem tidy_of_readConstant {cs rest : List Char} {d : Datum}
    (h : readConstant cs = some (d, rest)) : Tidy d := by
  obtain ⟨entry, hentry, hfound⟩ := List.exists_of_findSome?_eq_some h
  obtain ⟨behind, -, hsome⟩ := Option.map_eq_some_iff.mp hfound
  cases hsome
  refine .other fun entries hmap => ?_
  simp only [constants, List.mem_cons, List.not_mem_nil, or_false] at hentry
  rcases hentry with rfl | rfl | rfl | rfl | rfl | rfl <;> cases hmap

/-- The keys of every mapping that is read are distinct texts. -/
theorem tidy_of_readDatum (fuel : Nat) :
    (∀ {cs rest : List Char} {d : Datum}, readDatum fuel cs = some (d, rest) → Tidy d) ∧
      ∀ {cs rest : List Char} {members : List (Key × Datum)},
        readMembers fuel cs = some (members, rest) →
          ∀ m ∈ members, ∃ key, m.1 = .text key ∧ Tidy m.2 := by
  induction fuel with
  | zero =>
    constructor
    · intro cs rest d h
      simp [readDatum] at h
    · intro cs rest members h
      simp [readMembers] at h
  | succ fuel ih =>
    obtain ⟨ihdatum, ihmembers⟩ := ih
    constructor
    · intro cs rest d h
      rw [readDatum.eq_def] at h
      dsimp only at h
      split at h
      · obtain ⟨r, -, hr⟩ := Option.map_eq_some_iff.mp h
        cases hr
        exact .other fun _ h => by cases h
      · split at h
        · cases h
          exact .other fun _ h => by cases h
        · obtain ⟨r, -, hr⟩ := Option.map_eq_some_iff.mp h
          cases hr
          exact .other fun _ h => by cases h
      · have hnone : Tidy (.map []) := @Tidy.map [] (by simp) (by simp)
        split at h
        · cases h
          exact hnone
        · obtain ⟨r, hmembers, hr⟩ := Option.map_eq_some_iff.mp h
          cases hr
          exact tidy_foldl_insert (ihmembers hmembers) hnone
      · split at h
        · rename_i r hconstant
          cases h
          exact tidy_of_readConstant hconstant
        · split at h <;> exact tidy_of_readNumber h
    · intro cs rest members h
      rw [readMembers.eq_def] at h
      dsimp only at h
      split at h
      swap
      · cases h
      split at h
      · cases h
      split at h
      swap
      · cases h
      split at h
      · cases h
      rename_i d behind hdatum
      split at h
      · cases h
        simpa using ihdatum hdatum
      · obtain ⟨r, hmembers, hr⟩ := Option.map_eq_some_iff.mp h
        cases hr
        intro m hm
        rcases List.mem_cons.mp hm with rfl | hm
        · exact ⟨_, rfl, ihdatum hdatum⟩
        · exact ihmembers hmembers m hm
      · cases h

theorem tidy_of_read? {cs : List Char} {d : Datum} (h : read? cs = some d) : Tidy d := by
  unfold read? at h
  split at h
  · rename_i d' rest hread
    split_ifs at h
    cases h
    exact (tidy_of_readDatum _).1 hread
  · cases h

end FlowMachine.Json
