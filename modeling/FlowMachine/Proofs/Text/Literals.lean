import FlowMachine.Emit.Layout
import FlowMachine.Module.Token
import FlowMachine.Proofs.Datum.Json

/-!
# Reading literals

The literals of written modules are read back as the data that they stand for: texts, nothing,
lists, and mappings with texts for keys. A first pass turns characters into tokens, one at a time;
it drops blanks and comments and decodes texts. A second pass puts the tokens together. What is read
has the meaning that the language of the modules gives it. Numbers, texts between triple quotes or
next to each other, and escapes by name or by octal digits are not read.
-/
namespace FlowMachine.Literal

open FlowMachine.Text

/-! ## Tokens -/

inductive Token where
  | mark (c : Char)
  | text (s : String)
  | null
deriving DecidableEq, Repr

/-- Where the first pass stands. -/
inductive Mode where
  /-- Between tokens. Right behind an empty text its quote cannot follow. -/
  | between (refused : Option Char)
  | comment
  | word (cs : List Char)
  /-- Inside a text, behind some of its characters. -/
  | inside (quote : Char) (cs : List Char)
  | escape (quote : Char) (cs : List Char)
  /-- Inside an escape by number that takes more digits. -/
  | digits (quote : Char) (cs : List Char) (left n : Nat)
deriving DecidableEq, Repr

def isSpace (c : Char) : Bool := [' ', '\t', '\n', '\r', Char.ofNat 12].contains c

def isLineEnd (c : Char) : Bool := c == '\n' || c == '\r'

def isQuote (c : Char) : Bool := c == '\'' || c == '"'

def isMark (c : Char) : Bool := ['[', ']', '{', '}', ',', ':'].contains c

/-- What a character behind a backslash stands for. -/
def escapes : List (Char × Char) :=
  [('\\', '\\'), ('\'', '\''), ('"', '"'), ('a', Char.ofNat 7), ('b', Char.ofNat 8), ('t', '\t'),
   ('n', '\n'), ('v', Char.ofNat 11), ('f', Char.ofNat 12), ('r', '\r')]

/-- The letters of escapes by number with the digits they take. -/
def widths : List (Char × Nat) := [('x', 2), ('u', 4), ('U', 8)]

/-- Reads a character that starts a token, behind the tokens that it ends. -/
def start (ended : List Token) (c : Char) : Option (Mode × List Token) :=
  if isSpace c then some (.between none, ended)
  else if c == '#' then some (.comment, ended)
  else if isQuote c then some (.inside c [], ended)
  else if isMark c then some (.between none, ended ++ [.mark c])
  else if Module.isNamePart c then some (.word [c], ended)
  else none

/-- Reads one character: the mode behind it and the tokens that it ends. -/
def step : Mode → Char → Option (Mode × List Token)
  | .between refused, c => if refused == some c then none else start [] c
  | .comment, c => some (if isLineEnd c then .between none else .comment, [])
  | .word cs, c =>
    if Module.isNamePart c then some (.word (cs ++ [c]), [])
    else if cs == "None".toList then start [.null] c
    else none
  | .inside quote cs, c =>
    if c == quote then
      some (.between (if cs.isEmpty then some quote else none), [.text (String.ofList cs)])
    else if c == '\\' then some (.escape quote cs, [])
    else if isLineEnd c then none
    else some (.inside quote (cs ++ [c]), [])
  | .escape quote cs, c =>
    match escapes.lookup c, widths.lookup c with
    | some d, _ => some (.inside quote (cs ++ [d]), [])
    | none, some width => some (.digits quote cs width 0, [])
    | none, none => none
  | .digits quote cs left n, c =>
    match Json.hexValue? c with
    | none => none
    | some value =>
      let n := 16 * n + value
      if left == 1 then
        if n.isValidChar then some (.inside quote (cs ++ [Char.ofNat n]), []) else none
      else some (.digits quote cs (left - 1) n, [])

/-- Reads characters from left to right. -/
def run : Mode → List Char → Option (Mode × List Token)
  | mode, [] => some (mode, [])
  | mode, c :: cs => (step mode c).bind fun a => (run a.1 cs).map fun b => (b.1, a.2 ++ b.2)

/-- The tokens of a text, whose last line may lack its end. -/
def tokens? (cs : List Char) : Option (List Token) :=
  match run (.between none) (cs ++ ['\n']) with
  | some (.between none, ts) => some ts
  | _ => none

example : tokens? "[  # two items\n  'it\\'s \\x41',None]".toList =
    some [.mark '[', .text "it's A", .mark ',', .null, .mark ']'] := by
  decide

/-! ## Data -/

mutual

/-- Reads the datum at the front of tokens. -/
def readDatum : Nat → List Token → Option (Datum × List Token)
  | 0, _ => none
  | fuel + 1, ts =>
    match ts with
    | .text s :: rest => some (.text s, rest)
    | .null :: rest => some (.null, rest)
    | .mark '[' :: rest => (readItems fuel rest).map fun r => (.list r.1, r.2)
    | .mark '{' :: rest =>
      (readFields fuel rest).map fun r =>
        (.map (r.1.foldl (fun entries f => Datum.insert entries f.1 f.2) []), r.2)
    | _ => none

/-- Reads the items of a list, behind its opening bracket or a comma. -/
def readItems : Nat → List Token → Option (List Datum × List Token)
  | 0, _ => none
  | fuel + 1, ts =>
    match ts with
    | .mark ']' :: rest => some ([], rest)
    | ts =>
      match readDatum fuel ts with
      | some (d, .mark ']' :: rest) => some ([d], rest)
      | some (d, .mark ',' :: rest) => (readItems fuel rest).map fun r => (d :: r.1, r.2)
      | _ => none

/-- Reads the fields of a mapping, behind its opening brace or a comma. -/
def readFields : Nat → List Token → Option (List (Key × Datum) × List Token)
  | 0, _ => none
  | fuel + 1, ts =>
    match ts with
    | .mark '}' :: rest => some ([], rest)
    | .text key :: .mark ':' :: rest =>
      match readDatum fuel rest with
      | some (d, .mark '}' :: rest) => some ([(.text key, d)], rest)
      | some (d, .mark ',' :: rest) => (readFields fuel rest).map fun r =>
        ((.text key, d) :: r.1, r.2)
      | _ => none
    | _ => none

end

/-- The datum that a text is the literal of. Blanks and comments may stand around its tokens. -/
def read? (s : String) : Option Datum :=
  match tokens? s.toList with
  | none => none
  | some ts =>
    match readDatum (2 * ts.length) ts with
    | some (d, []) => some d
    | _ => none

/-! ## Running through parts of a text -/

theorem run_append (mode : Mode) (cs ds : List Char) :
    run mode (cs ++ ds) = (run mode cs).bind fun a => (run a.1 ds).map fun b =>
      (b.1, a.2 ++ b.2) := by
  induction cs generalizing mode with
  | nil => simp [run]
  | cons c cs ih =>
    rw [List.cons_append, run, run]
    cases step mode c with
    | none => rfl
    | some a =>
      simp only [Option.bind_some, ih, Option.map_bind, Option.bind_map, Function.comp_def,
        Option.map_map]
      cases run a.1 cs <;> simp [List.append_assoc]

theorem run_append_of_eq {mode mode' mode'' : Mode} {cs ds : List Char} {ts us : List Token}
    (hfront : run mode cs = some (mode', ts)) (hback : run mode' ds = some (mode'', us)) :
    run mode (cs ++ ds) = some (mode'', ts ++ us) := by
  rw [run_append, hfront, Option.bind_some, hback]
  rfl

/-- The characters are whole tokens with blanks and comments between them. -/
def Lexes (cs : List Char) (ts : List Token) : Prop :=
  run (.between none) cs = some (.between none, ts)

instance (cs : List Char) (ts : List Token) : Decidable (Lexes cs ts) :=
  inferInstanceAs (Decidable (run (.between none) cs = some (.between none, ts)))

theorem Lexes.append {cs ds : List Char} {ts us : List Token} (hfront : Lexes cs ts)
    (hback : Lexes ds us) :
    Lexes (cs ++ ds) (ts ++ us) :=
  run_append_of_eq hfront hback

theorem tokens?_of_lexes {cs : List Char} {ts : List Token} (h : Lexes cs ts) :
    tokens? cs = some ts := by
  have hbreak : run (.between none) ['\n'] = some (.between none, []) := rfl
  rw [tokens?, run_append_of_eq h hbreak, List.append_nil]

/-- A comment is passed over up to the end of its line. -/
theorem lexes_comment {cs : List Char} (h : ∀ c ∈ cs, isLineEnd c = false) :
    Lexes ('#' :: cs ++ ['\n']) [] := by
  have hinside : run .comment cs = some (.comment, []) := by
    induction cs with
    | nil => rfl
    | cons c cs ih =>
      have hc : step .comment c = some (.comment, []) := by simp [step, h c List.mem_cons_self]
      rw [run, hc, Option.bind_some, ih fun d hd => h d (List.mem_cons_of_mem _ hd)]
      rfl
  have hopen : run (.between none) ['#'] = some (.comment, []) := rfl
  exact run_append_of_eq (run_append_of_eq hopen hinside) rfl

/-! ## Escapes by number -/

/-- The number of digits in base sixteen, behind others. -/
def hexNumber (n : Nat) (ds : List Char) : Nat :=
  ds.foldl (fun n d => 16 * n + (Json.hexValue? d).getD 0) n

theorem hexNumber_append (n : Nat) (ds es : List Char) :
    hexNumber n (ds ++ es) = hexNumber (hexNumber n ds) es :=
  List.foldl_append

/-- The digits of a number have its value, and each of them is one. -/
theorem hexNumber_toDigits (k : Nat) :
    hexNumber 0 (Nat.toDigits 16 k) = k ∧ ∀ d ∈ Nat.toDigits 16 k,
      (Json.hexValue? d).isSome = true := by
  induction k using Nat.strongRecOn with
  | ind k ih =>
    have hvalue (v : Nat) (hv : v < 16) : Json.hexValue? (Nat.digitChar v) = some v :=
      Json.hexValue?_digitChar ⟨v, hv⟩
    rcases Nat.lt_or_ge k 16 with hk | hk
    · rw [Nat.toDigits_of_lt_base hk]
      simp [hexNumber, hvalue k hk]
    · obtain ⟨hnumber, hdigits⟩ := ih (k / 16) (by omega)
      rw [Nat.toDigits_of_base_le (by decide) hk]
      constructor
      · rw [hexNumber_append, hnumber]
        simp only [hexNumber, List.foldl_cons, List.foldl_nil, hvalue (k % 16) (by omega),
          Option.getD_some]
        omega
      · intro d hd
        rcases List.mem_append.mp hd with hd | hd
        · exact hdigits d hd
        · rw [List.mem_singleton.mp hd, hvalue (k % 16) (by omega)]
          rfl

theorem hexNumber_hexDigits (width k : Nat) : hexNumber 0 (hexDigits width k) = k := by
  have hzeros (n : Nat) : hexNumber 0 (List.replicate n '0') = 0 := by
    induction n with
    | zero => rfl
    | succ n ih => exact ih
  rw [hexDigits, hexNumber_append, hzeros]
  exact (hexNumber_toDigits k).1

theorem isSome_of_mem_hexDigits {width k : Nat} {d : Char} (hd : d ∈ hexDigits width k) :
    (Json.hexValue? d).isSome = true := by
  rcases List.mem_append.mp hd with hd | hd
  · rw [(List.mem_replicate.mp hd).2]
    rfl
  · exact (hexNumber_toDigits k).2 d hd

theorem length_hexDigits {width k : Nat} (h : (Nat.toDigits 16 k).length ≤ width) :
    (hexDigits width k).length = width := by
  simp only [hexDigits, List.length_append, List.length_replicate]
  omega

theorem run_digits (quote : Char) (front : List Char) {ds : List Char}
    (hds : ∀ d ∈ ds, (Json.hexValue? d).isSome = true) (hne : ds ≠ []) (n : Nat) :
    run (.digits quote front ds.length n) ds =
      if (hexNumber n ds).isValidChar then
        some (.inside quote (front ++ [Char.ofNat (hexNumber n ds)]), [])
      else none := by
  induction ds generalizing n with
  | nil => exact absurd rfl hne
  | cons d ds ih =>
    obtain ⟨v, hv⟩ := Option.isSome_iff_exists.mp (hds d List.mem_cons_self)
    have hnumber : hexNumber n (d :: ds) = hexNumber (16 * n + v) ds := by simp [hexNumber, hv]
    rw [run, step, hv, hnumber]
    dsimp only
    cases ds with
    | nil =>
      simp only [List.length_singleton, BEq.rfl, if_true]
      rw [hexNumber, List.foldl_nil]
      split_ifs <;> rfl
    | cons e es =>
      have hleft : ((d :: e :: es).length == 1) = false := by simp
      rw [hleft, if_neg Bool.false_ne_true, Option.bind_some]
      show Option.map _ (run (.digits quote front (e :: es).length (16 * n + v)) (e :: es)) = _
      rw [ih (fun f hf => hds f (List.mem_cons_of_mem _ hf)) (List.cons_ne_nil e es)]
      split_ifs <;> rfl

/-! ## Texts -/

section Quote

variable {quote : Char} (hquote : isQuote quote = true) (front : List Char)

include hquote

theorem step_backslash : step (.inside quote front) '\\' = some (.escape quote front, []) := by
  have hne : ('\\' == quote) = false := beq_eq_false_iff_ne.mpr fun h =>
    by simp [← h, isQuote] at hquote
  rw [step, hne]
  rfl

theorem run_escape {c d : Char} (h : escapes.lookup c = some d) :
    run (.inside quote front) ['\\', c] = some (.inside quote (front ++ [d]), []) := by
  rw [run, step_backslash hquote, Option.bind_some, run, step, h]
  rfl

/-- An escape by number with enough digits is read as the character of the number. -/
theorem run_number {letter : Char} {width : Nat} (hletter : escapes.lookup letter = none)
    (hwidth : widths.lookup letter = some width) {c : Char}
    (hlength : (Nat.toDigits 16 c.toNat).length ≤ width) :
    run (.inside quote front) ('\\' :: letter :: hexDigits width c.toNat) =
      some (.inside quote (front ++ [c]), []) := by
  have hletters : run (.inside quote front) ['\\', letter] =
      some (.digits quote front width 0, []) := by
    rw [run, step_backslash hquote, Option.bind_some, run, step, hletter, hwidth]
    rfl
  have hdigits : run (.digits quote front width 0) (hexDigits width c.toNat) =
      some (.inside quote (front ++ [c]), []) := by
    have hne : hexDigits width c.toNat ≠ [] := by simp [hexDigits, Nat.toDigits_ne_nil]
    have hvalid : c.toNat.isValidChar := c.valid
    have hread := run_digits quote front (fun _ => isSome_of_mem_hexDigits) hne 0
    rwa [length_hexDigits hlength, hexNumber_hexDigits, if_pos hvalid, Char.ofNat_toNat] at hread
  exact run_append_of_eq hletters hdigits

/-- A character is read as it was written. -/
theorem run_literalChar (c : Char) :
    run (.inside quote front) (literalChar quote c) = some (.inside quote (front ++ [c]), []) := by
  have hlength {width : Nat} (hwidth : 0 < width) (h : c.toNat < Nat.pow 16 width) :
      (Nat.toDigits 16 c.toNat).length ≤ width :=
        (Nat.length_toDigits_le_iff (by decide) hwidth).mpr h
  unfold literalChar
  split_ifs with hself htab hfeed hreturn hvisible hbyte hunit
  · refine run_escape hquote front ?_
    rcases Bool.or_eq_true_iff.mp hself with h | h <;> obtain rfl := eq_of_beq h
    · rcases Bool.or_eq_true_iff.mp hquote with h | h <;> obtain rfl := eq_of_beq h <;> rfl
    · rfl
  · obtain rfl := eq_of_beq htab
    exact run_escape hquote front rfl
  · obtain rfl := eq_of_beq hfeed
    exact run_escape hquote front rfl
  · obtain rfl := eq_of_beq hreturn
    exact run_escape hquote front rfl
  · rw [Bool.or_eq_true, not_or] at hself
    rw [run, step, if_neg hself.1, if_neg hself.2, if_neg]
    · rfl
    · simp [isLineEnd, hfeed, hreturn]
  · exact run_number hquote front rfl rfl (hlength (by decide) hbyte)
  · exact run_number hquote front rfl rfl (hlength (by decide) hunit)
  · have hvalid := Json.toNat_cases c
    exact run_number hquote front rfl rfl
      (hlength (by decide) (by show c.toNat < 4294967296; omega))

theorem run_literalChars (cs : List Char) :
    run (.inside quote front) (cs.flatMap (literalChar quote)) =
      some (.inside quote (front ++ cs), []) := by
  induction cs generalizing front with
  | nil => simp [run]
  | cons c cs ih =>
    have happend := run_append_of_eq (run_literalChar hquote front c) (ih (front ++ [c]))
    simpa using happend

end Quote

theorem isQuote_quoteOf (cs : List Char) : isQuote (quoteOf cs) = true := by
  unfold quoteOf
  split_ifs <;> rfl

theorem start_quote {quote : Char} (h : isQuote quote = true) :
    start [] quote = some (.inside quote [], []) := by
  rcases Bool.or_eq_true_iff.mp h with h | h <;> obtain rfl := eq_of_beq h <;> rfl

theorem start_mark {c : Char} (h : isMark c = true) :
    start [] c = some (.between none, [.mark c]) ∧ isQuote c = false := by
  simp only [isMark, List.contains_iff_mem, List.mem_cons, List.not_mem_nil, or_false] at h
  rcases h with rfl | rfl | rfl | rfl | rfl | rfl <;> exact ⟨rfl, rfl⟩

/-- The literal of a text is read as the text. What ends it is a mark behind it, since the literal
of the empty text could as well open a text between triple quotes. -/
theorem lexes_literal (s : String) {c : Char} (hmark : isMark c = true) :
    Lexes ((literal s).toList ++ [c]) [.text s, .mark c] := by
  obtain ⟨hstart, hother⟩ := start_mark hmark
  have hquote := isQuote_quoteOf s.toList
  have hopen : run (.between none) [quoteOf s.toList] =
      some (.inside (quoteOf s.toList) [], []) := by
    rw [run, step, if_neg (by simp), start_quote hquote]
    rfl
  have hclose : run (.inside (quoteOf s.toList) s.toList) [quoteOf s.toList, c] =
      some (.between none, [.text s, .mark c]) := by
    have hrefused : ((if s.toList.isEmpty then some (quoteOf s.toList) else none) == some c) =
        false := by
      split_ifs
      · rw [beq_eq_false_iff_ne]
        rintro h
        rw [Option.some.inj h, hother] at hquote
        cases hquote
      · rfl
    rw [run, step, if_pos BEq.rfl, Option.bind_some, run, step, hrefused,
      if_neg Bool.false_ne_true, hstart, String.ofList_toList]
    rfl
  have hwhole :=
    run_append_of_eq (run_append_of_eq hopen (run_literalChars hquote [] s.toList)) hclose
  simpa [Lexes, literal, literalChars] using hwhole

/-- The tokens of texts with commas between them. -/
def textTokens (items : List String) : List Token := (items.map Token.text).intersperse (.mark ',')

/-- The tokens of a list of texts. -/
def listTokens (items : List String) : List Token := .mark '[' :: textTokens items ++ [.mark ']']

theorem lexes_listOf (items : List String) :
    Lexes (Emit.listOf items).toList (listTokens items) := by
  have hinner : Lexes (", ".toList.intercalate (items.map fun s => (literal s).toList) ++ [']'])
      (textTokens items ++ [.mark ']']) := by
    induction items with
    | nil => rfl
    | cons s items ih =>
      cases items with
      | nil => simpa [textTokens, List.intercalate] using lexes_literal s (c := ']') rfl
      | cons s' items =>
        have hblank : Lexes [' '] [] := rfl
        have hall := ((lexes_literal s (c := ',') rfl).append hblank).append ih
        simpa [textTokens, List.intercalate, List.intersperse_cons_cons] using hall
  have hopen : Lexes ['['] [.mark '['] := rfl
  have hall := hopen.append hinner
  simpa [Emit.listOf, literalList, listTokens, String.toList_intercalate,
    Function.comp_def] using hall

/-! ## Data from tokens -/

/-- The tokens are those of the datum, whatever follows them. -/
def Denotes (ts : List Token) (d : Datum) : Prop :=
  ∀ fuel rest, 2 * ts.length ≤ fuel → readDatum fuel (ts ++ rest) = some (d, rest)

theorem denotes_text (s : String) : Denotes [.text s] (.text s) := by
  intro fuel rest hfuel
  obtain ⟨fuel, rfl⟩ := Nat.exists_eq_add_of_le' (Nat.le_trans (by decide : 1 ≤ 2) hfuel)
  rfl

theorem denotes_null : Denotes [.null] .null := by
  intro fuel rest hfuel
  obtain ⟨fuel, rfl⟩ := Nat.exists_eq_add_of_le' (Nat.le_trans (by decide : 1 ≤ 2) hfuel)
  rfl

section Parts

variable {fuel : Nat} {ts rest : List Token} {d : Datum}

/-- No datum starts with a closing mark. -/
theorem ne_closing_of_readDatum {r : Datum × List Token} (h : readDatum fuel ts = some r) :
    ∀ rest, ts ≠ .mark ']' :: rest := by
  rintro rest rfl
  cases fuel <;> cases h

theorem readItems_comma (h : readDatum fuel ts = some (d, .mark ',' :: rest)) :
    readItems (fuel + 1) ts = (readItems fuel rest).map fun r => (d :: r.1, r.2) := by
  rw [readItems, h]
  · rfl
  · exact ne_closing_of_readDatum h

theorem readItems_last (h : readDatum fuel ts = some (d, .mark ']' :: rest)) :
    readItems (fuel + 1) ts = some ([d], rest) := by
  rw [readItems, h]
  · rfl
  · exact ne_closing_of_readDatum h

theorem readFields_comma {key : String} (h : readDatum fuel ts = some (d, .mark ',' :: rest)) :
    readFields (fuel + 1) (.text key :: .mark ':' :: ts) =
      (readFields fuel rest).map fun r => ((.text key, d) :: r.1, r.2) := by
  rw [readFields, h]
  rfl

end Parts

theorem readItems_textTokens (items : List String) {fuel : Nat} (rest : List Token)
    (hfuel : 2 * (textTokens items).length < fuel) :
    readItems fuel (textTokens items ++ .mark ']' :: rest) = some (items.map .text, rest) := by
  induction items generalizing fuel with
  | nil =>
    obtain ⟨fuel, rfl⟩ := Nat.exists_eq_add_one_of_ne_zero (Nat.ne_zero_of_lt hfuel)
    rfl
  | cons s items ih =>
    obtain ⟨fuel, rfl⟩ := Nat.exists_eq_add_one_of_ne_zero (Nat.ne_zero_of_lt hfuel)
    cases items with
    | nil =>
      exact readItems_last (denotes_text s fuel (.mark ']' :: rest) (Nat.le_of_lt_succ hfuel))
    | cons s' items =>
      have hsplit : textTokens (s :: s' :: items) = .text s :: .mark ',' ::
        textTokens (s' :: items) := rfl
      rw [hsplit] at hfuel ⊢
      simp only [List.length_cons] at hfuel
      have hfirst := denotes_text s fuel
        (.mark ',' :: (textTokens (s' :: items) ++ .mark ']' :: rest))
        (by simp only [List.length_singleton]; omega)
      refine (readItems_comma hfirst).trans ?_
      rw [ih (by omega)]
      rfl

theorem denotes_listTokens (items : List String) :
    Denotes (listTokens items) (.list (items.map .text)) := by
  intro fuel rest hfuel
  simp only [listTokens, List.length_cons, List.length_append, List.length_nil] at hfuel
  obtain ⟨fuel, rfl⟩ := Nat.exists_eq_add_one_of_ne_zero (n := fuel) (by omega)
  rw [listTokens, List.append_assoc, List.cons_append, List.singleton_append, readDatum,
    readItems_textTokens items rest (by omega)]
  rfl

theorem readItems_items {items : List (List Token × Datum)}
    (h : ∀ item ∈ items, Denotes item.1 item.2)
    {fuel : Nat} (rest : List Token)
    (hfuel : 2 * (items.flatMap fun item => item.1 ++ [.mark ',']).length < fuel) :
    readItems fuel (items.flatMap (fun item => item.1 ++ [.mark ',']) ++ .mark ']' :: rest) =
      some (items.map Prod.snd, rest) := by
  induction items generalizing fuel with
  | nil =>
    obtain ⟨fuel, rfl⟩ := Nat.exists_eq_add_one_of_ne_zero (Nat.ne_zero_of_lt hfuel)
    rfl
  | cons item items ih =>
    obtain ⟨fuel, rfl⟩ := Nat.exists_eq_add_one_of_ne_zero (Nat.ne_zero_of_lt hfuel)
    simp only [List.flatMap_cons, List.length_append, List.length_cons, List.length_nil] at hfuel
    rw [List.flatMap_cons, List.append_assoc, List.append_assoc, List.cons_append, List.nil_append,
      readItems_comma (h item List.mem_cons_self fuel _ (by omega)),
      ih (fun other hother => h other (List.mem_cons_of_mem _ hother)) (by omega)]
    rfl

/-- A list with a comma behind each of its items. -/
theorem denotes_list {items : List (List Token × Datum)}
    (h : ∀ item ∈ items, Denotes item.1 item.2) :
    Denotes (.mark '[' :: items.flatMap (fun item => item.1 ++ [.mark ',']) ++ [.mark ']'])
      (.list (items.map Prod.snd)) := by
  intro fuel rest hfuel
  simp only [List.length_cons, List.length_append, List.length_nil] at hfuel
  obtain ⟨fuel, rfl⟩ := Nat.exists_eq_add_one_of_ne_zero (n := fuel) (by omega)
  rw [List.append_assoc, List.cons_append, List.singleton_append, readDatum,
    readItems_items h rest (by omega)]
  rfl

/-- The tokens of a field, with the comma behind it. -/
def fieldTokens (field : String × List Token × Datum) : List Token :=
  .text field.1 :: .mark ':' :: field.2.1 ++ [.mark ',']

theorem readFields_fields {fields : List (String × List Token × Datum)}
    (h : ∀ field ∈ fields, Denotes field.2.1 field.2.2) {fuel : Nat} (rest : List Token)
    (hfuel : 2 * (fields.flatMap fieldTokens).length < fuel) :
    readFields fuel (fields.flatMap fieldTokens ++ .mark '}' :: rest) =
      some (fields.map fun field => (.text field.1, field.2.2), rest) := by
  induction fields generalizing fuel with
  | nil =>
    obtain ⟨fuel, rfl⟩ := Nat.exists_eq_add_one_of_ne_zero (Nat.ne_zero_of_lt hfuel)
    rfl
  | cons field fields ih =>
    obtain ⟨fuel, rfl⟩ := Nat.exists_eq_add_one_of_ne_zero (Nat.ne_zero_of_lt hfuel)
    simp only [List.flatMap_cons, fieldTokens, List.length_append, List.length_cons,
      List.length_nil] at hfuel
    rw [List.flatMap_cons, fieldTokens, List.append_assoc, List.cons_append, List.cons_append,
      List.cons_append, List.cons_append, List.append_assoc, List.cons_append, List.nil_append,
      readFields_comma (h field List.mem_cons_self fuel _ (by omega)),
      ih (fun other hother => h other (List.mem_cons_of_mem _ hother)) (by omega)]
    rfl

/-- A mapping with a comma behind each of its fields. -/
theorem denotes_fields {fields : List (String × List Token × Datum)}
    (h : ∀ field ∈ fields, Denotes field.2.1 field.2.2) (hkeys : (fields.map Prod.fst).Nodup) :
    Denotes (.mark '{' :: fields.flatMap fieldTokens ++ [.mark '}'])
      (.ofFields (fields.map fun field => (field.1, field.2.2))) := by
  intro fuel rest hfuel
  simp only [List.length_cons, List.length_append, List.length_nil] at hfuel
  obtain ⟨fuel, rfl⟩ := Nat.exists_eq_add_one_of_ne_zero (n := fuel) (by omega)
  have hinsert := @Json.foldl_insert_fields (fields.map fun field => (field.1, field.2.2))
    (by simpa [Function.comp_def] using hkeys)
  rw [List.map_map] at hinsert
  rw [List.append_assoc, List.cons_append, List.singleton_append, readDatum,
    readFields_fields h rest (by omega)]
  rw [Datum.ofFields, List.map_map]
  exact congrArg (fun entries => some (Datum.map entries, rest)) hinsert

theorem read?_of_lexes {s : String} {ts : List Token} {d : Datum} (hlexes : Lexes s.toList ts)
    (hdenotes : Denotes ts d) : read? s = some d := by
  have hread := hdenotes (2 * ts.length) [] (Nat.le_refl _)
  rw [List.append_nil] at hread
  rw [read?, tokens?_of_lexes hlexes]
  dsimp only
  rw [hread]

end FlowMachine.Literal
