import FlowMachine.Proofs.Module.Scanning
import FlowMachine.Proofs.Text.Pieces
import Mathlib.Data.Bool.AllAny

/-!
# Tokens of characters

What the first token of a text is: for marks, words, numbers and texts in quotes, when the character
behind it ends it.
-/
namespace FlowMachine.Module

variable {c : Char}

theorem tokens_newline (fuel : Nat) (p : Place) (rest : List Char) :
    tokens (fuel + 1) p ('\n' :: rest) =
    if p.brackets.isEmpty then p.token .newline :: lineTokens fuel
    { p with line := p.line + 1 } rest
    else tokens fuel { p with line := p.line + 1 } rest := by
  rw [tokens]

/-- The tokens from a mark on. -/
def markTokens (fuel : Nat) (p : Place) (c : Char) (rest : List Char) : List Token :=
  match markAt? (c :: rest) with
  | none =>
    if c.toNat < 0x20 || c.toNat == 0x7F then [p.token (.bad (.badCharacter c))]
    else p.token (.mark (String.ofList [c])) :: tokens fuel p rest
  | some (text, behind) =>
    if c == '(' || c == '[' || c == '{' then
      let p := { p with brackets := (c, p.line) :: p.brackets }
      p.token (.mark text) :: tokens fuel p behind
    else if c == ')' || c == ']' || c == '}' then
      match p.brackets with
      | [] => [p.token (.bad (.unmatched c))]
      | (opener, openerLine) :: outer =>
        if closes c opener then
          let p := { p with brackets := outer }
          p.token (.mark text) :: tokens fuel p behind
        else
          let line := if openerLine == p.line then none else some openerLine
          [p.token (.bad (.mismatched c opener line))]
    else p.token (.mark text) :: tokens fuel p behind

/-- The first character tells what stands at the front. -/
theorem tokens_cons (hnewline : c ≠ '\n') (hslash : c ≠ '\\') (fuel : Nat) (p : Place)
    (rest : List Char) :
    tokens (fuel + 1) p (c :: rest) =
      if c == ' ' || c == '\t' || c.toNat == 12 then tokens fuel p rest
      else if c == '#' then tokens fuel p (rest.dropWhile (· != '\n'))
      else if c == '"' || c == '\'' then quoted fuel p [] c rest
      else if c.isDigit || (c == '.' && rest.head?.any Char.isDigit) then
        match Number.read (c :: rest) with
        | .ok behind => p.token .number :: tokens fuel p behind
        | .error cause => [p.token (.bad (.badNumber cause))]
      else if isNamePart c then
        named fuel p ((c :: rest).takeWhile isNamePart) ((c :: rest).dropWhile isNamePart)
      else markTokens fuel p c rest := by
  rw [tokens]
  · rfl
  all_goals simp [hnewline, hslash]

/-! ## Marks -/

open Text Scan

/-- Characters that marks start with. -/
def markChars : List Char :=
  [',', ':', '.', '=', '@', '*', '+', '-', '<', '>', '!', '(', ')', '[', ']', '\x7b', '\x7d']

/-- The marks that start with a character. -/
def marksOf (c : Char) : List String :=
  if c == '=' then ["==", "="] else if c == '*' then ["**=", "**", "*=", "*"]
    else if c == '+' then ["+=", "+"]
  else if c == '-' then ["->", "-=", "-"] else if c == '<' then ["<<=", "<<", "<=", "<"]
  else if c == '>' then [">>=", ">>", ">=", ">"] else if c == '!' then ["!="]
    else if c == ':' then [":=", ":"]
  else if c == '.' then ["...", "."] else if c == '@' then ["@=", "@"] else [String.ofList [c]]

theorem findSome?_filter_head (c : Char) (cs : List Char) {ms : List String}
    (h : ∀ m ∈ ms, m.toList ≠ []) :
    ms.findSome? (fun m => (behind? m.toList (c :: cs)).map fun rest => (m, rest)) =
      (ms.filter (·.toList.head? == some c)).findSome? fun m =>
      (behind? m.toList (c :: cs)).map fun rest => (m, rest) := by
  induction ms with
  | nil => rfl
  | cons m ms ih =>
    rw [List.findSome?_cons, ih fun m hm => h m (List.mem_cons_of_mem _ hm)]
    cases hm : m.toList with
    | nil => exact absurd hm (h m List.mem_cons_self)
    | cons d ds =>
      by_cases hd : d = c
      · rw [List.filter_cons_of_pos (by simp [hm, hd]), List.findSome?_cons, hm]
      · rw [List.filter_cons_of_neg (by simp [hm, hd])]
        simp [behind?, hd]

theorem markAt?_eq {c : Char} (hc : c ∈ markChars) (cs : List Char) :
    markAt? (c :: cs) = (marksOf c).findSome? fun m => (behind? m.toList (c :: cs)).map fun rest =>
      (m, rest) := by
  have hmarks : ∀ m ∈ marks, m.toList ≠ [] := by decide
  have hchars : ∀ c ∈ markChars, marks.filter (·.toList.head? == some c) = marksOf c :=
    List.all_iff_forall_prop.mp (by decide +kernel)
  rw [markAt?, findSome?_filter_head c cs hmarks, hchars c hc]

theorem markAt?_bracket {c : Char} (hc : c ∈ ['(', ')', '[', ']', '\x7b', '\x7d'])
    (rest : List Char) :
    markAt? (c :: rest) = some (String.ofList [c], rest) := by
  have hsingle : ∀ c ∈ ['(', ')', '[', ']', '\x7b', '\x7d'], c ∈ markChars ∧
      marksOf c = [String.ofList [c]] :=
    List.all_iff_forall_prop.mp (by decide)
  rw [markAt?_eq (hsingle c hc).1, (hsingle c hc).2]
  simp [behind?]

theorem markAt?_single {c d : Char} {s : Sign} (hs : (c, s) ∈ singles) (hd : runsOn c d = false)
    (hstar : (d == '*' && c == '*') = false) (rest : List Char) :
    markAt? (c :: d :: rest) = some (s.text, d :: rest) := by
  simp only [runsOn, Bool.or_eq_false_iff, Bool.and_eq_false_imp, beq_iff_eq,
    beq_eq_false_iff_ne] at hd hstar
  obtain ⟨⟨⟨⟨hequals, harrow⟩, hless⟩, hgreater⟩, hdot⟩ := hd
  replace harrow : c = '-' → '>' ≠ d := fun hc => (harrow hc).symm
  replace hless : c = '<' → '<' ≠ d := fun hc => (hless hc).symm
  replace hgreater : c = '>' → '>' ≠ d := fun hc => (hgreater hc).symm
  replace hdot : c = '.' → '.' ≠ d := fun hc => (hdot hc).1.symm
  replace hstar : c = '*' → '*' ≠ d := fun hc h => hstar h.symm hc
  simp only [singles, List.mem_cons, Prod.mk.injEq, List.not_mem_nil, or_false] at hs
  rcases hs with ⟨rfl, rfl⟩ | ⟨rfl, rfl⟩ | ⟨rfl, rfl⟩ | ⟨rfl, rfl⟩ | ⟨rfl, rfl⟩ | ⟨rfl, rfl⟩ |
    ⟨rfl, rfl⟩ | ⟨rfl, rfl⟩ |
    ⟨rfl, rfl⟩ | ⟨rfl, rfl⟩
  all_goals
    rw [markAt?_eq (by decide)]
    simp [marksOf, behind?, Sign.text, hequals.symm, harrow, hless, hgreater, hdot, hstar]

theorem markAt?_double {c d : Char} {s : Sign} (hs : ((c, d), s) ∈ doubles) (rest : List Char) :
    markAt? (c :: d :: rest) = some (s.text, rest) := by
  simp only [doubles, List.mem_cons, Prod.mk.injEq, List.not_mem_nil, or_false] at hs
  rcases hs with ⟨⟨rfl, rfl⟩, rfl⟩ | ⟨⟨rfl, rfl⟩, rfl⟩ | ⟨⟨rfl, rfl⟩, rfl⟩ | ⟨⟨rfl, rfl⟩, rfl⟩ |
    ⟨⟨rfl, rfl⟩, rfl⟩ |
    ⟨⟨rfl, rfl⟩, rfl⟩
  all_goals
    rw [markAt?_eq (by decide)]
    simp [marksOf, behind?, Sign.text]

theorem markAt?_stars {d : Char} (hd : d ≠ '=') (rest : List Char) :
    markAt? ('*' :: '*' :: d :: rest) = some ("**", d :: rest) := by
  rw [markAt?_eq (by decide)]
  simp [marksOf, behind?, hd.symm]

theorem tokens_mark (hc : c ∈ markChars) (fuel : Nat) (p : Place) {rest : List Char}
    (hdot : (c == '.' && rest.head?.any Char.isDigit) = false) :
    tokens (fuel + 1) p (c :: rest) = markTokens fuel p c rest := by
  have hchars : ∀ c ∈ markChars, c ≠ '\n' ∧ c ≠ '\\' ∧
      (c == ' ' || c == '\t' || c.toNat == 12) = false ∧ (c == '#') = false ∧
      (c == '"' || c == '\'') = false ∧ c.isDigit = false ∧ isNamePart c = false :=
    List.all_iff_forall_prop.mp (by decide)
  obtain ⟨hnewline, hslash, hblank, hhash, hquote, hdigit, hname⟩ := hchars c hc
  rw [tokens_cons hnewline hslash, hblank, hhash, hquote, hdigit, hname, hdot]
  rfl

theorem tokens_single {c d : Char} {s : Sign} (hs : (c, s) ∈ singles) (hd : runsOn c d = false)
    (hstar : (d == '*' && c == '*') = false) (fuel : Nat) (p : Place) (rest : List Char) :
    tokens (fuel + 1) p (c :: d :: rest) = p.token s.lexeme :: tokens fuel p (d :: rest) := by
  have hchars : ∀ pair ∈ singles, pair.2.lexeme = .mark pair.2.text ∧ pair.1 ∈ markChars ∧
      (pair.1 == '(' || pair.1 == '[' || pair.1 == '\x7b') = false ∧
      (pair.1 == ')' || pair.1 == ']' || pair.1 == '\x7d') = false := by decide
  obtain ⟨hlexeme, hmem, hopen, hclose⟩ := hchars (c, s) hs
  have hdot : (c == '.' && (d :: rest).head?.any Char.isDigit) = false := by
    simp only [List.head?_cons, Option.any_some]
    cases hc : c == '.' with
    | false => rfl
    | true =>
      simp only [runsOn, hc, Bool.true_and, Bool.or_eq_false_iff] at hd
      exact hd.2.2
  rw [tokens_mark hmem fuel p hdot, markTokens, markAt?_single hs hd hstar rest]
  simp only []
  rw [hopen, hclose, hlexeme]
  rfl

theorem tokens_double {c d : Char} {s : Sign} (hs : ((c, d), s) ∈ doubles) (fuel : Nat) (p : Place)
    (rest : List Char) :
    tokens (fuel + 1) p (c :: d :: rest) = p.token s.lexeme :: tokens fuel p rest := by
  have hchars : ∀ pair ∈ doubles, pair.2.lexeme = .mark pair.2.text ∧ pair.1.1 ∈ markChars ∧
      (pair.1.1 == '.') = false ∧
      (pair.1.1 == '(' || pair.1.1 == '[' || pair.1.1 == '\x7b') = false ∧
      (pair.1.1 == ')' || pair.1.1 == ']' || pair.1.1 == '\x7d') = false := by decide
  obtain ⟨hlexeme, hmem, hdot, hopen, hclose⟩ := hchars ((c, d), s) hs
  rw [tokens_mark hmem fuel p (by rw [hdot]; rfl), markTokens, markAt?_double hs rest]
  simp only []
  rw [hopen, hclose, hlexeme]
  rfl

theorem tokens_stars {d : Char} (hd : d ≠ '=') (fuel : Nat) (p : Place) (rest : List Char) :
    tokens (fuel + 1) p ('*' :: '*' :: d :: rest) = p.token Sign.doubleStar.lexeme :: tokens fuel p
      (d :: rest) := by
  rw [tokens_mark (by decide) fuel p rfl, markTokens, markAt?_stars hd rest]
  rfl

theorem tokens_opener {s : Sign} (hs : (c, s) ∈ openers) (fuel : Nat) (p : Place)
    (rest : List Char) :
    tokens (fuel + 1) p (c :: rest) =
      { p with brackets := (c, p.line) :: p.brackets }.token s.lexeme ::
        tokens fuel { p with brackets := (c, p.line) :: p.brackets } rest := by
  have hchars : ∀ pair ∈ openers, pair.2.lexeme = .mark (String.ofList [pair.1]) ∧
      pair.1 ∈ markChars ∧
      (pair.1 == '.') = false ∧ pair.1 ∈ ['(', ')', '[', ']', '\x7b', '\x7d'] ∧
      (pair.1 == '(' || pair.1 == '[' || pair.1 == '\x7b') = true := by decide
  obtain ⟨hlexeme, hmem, hdot, hbracket, hopen⟩ := hchars (c, s) hs
  rw [tokens_mark hmem fuel p (by rw [hdot]; rfl), markTokens, markAt?_bracket hbracket rest]
  simp only []
  rw [hopen, hlexeme]
  rfl

theorem tokens_closer {s opener : Sign} (hs : (c, s, opener) ∈ closers) {line : Nat}
    {outer : List (Char × Nat)}
    {p : Place} (hp : p.brackets = (bracketChar opener, line) :: outer) (fuel : Nat)
    (rest : List Char) :
    tokens (fuel + 1) p (c :: rest) =
      { p with brackets := outer }.token s.lexeme :: tokens fuel
      { p with brackets := outer } rest := by
  have hchars : ∀ triple ∈ closers, triple.2.1.lexeme = .mark (String.ofList [triple.1]) ∧
      triple.1 ∈ markChars ∧
      (triple.1 == '.') = false ∧ triple.1 ∈ ['(', ')', '[', ']', '\x7b', '\x7d'] ∧
      (triple.1 == '(' || triple.1 == '[' || triple.1 == '\x7b') = false ∧
      (triple.1 == ')' || triple.1 == ']' || triple.1 == '\x7d') = true ∧
      closes triple.1 (bracketChar triple.2.2) = true := by decide
  obtain ⟨hlexeme, hmem, hdot, hbracket, hopen, hclose, hcloses⟩ := hchars (c, s, opener) hs
  rw [tokens_mark hmem fuel p (by rw [hdot]; rfl), markTokens, markAt?_bracket hbracket rest]
  simp only []
  rw [hopen, hclose, hlexeme, hp]
  simp [hcloses]

/-! ## Words -/

theorem toNat_of_isNameChar {c : Char} (h : isNameChar c = true) : c.toNat < 128 := by
  rcases Bool.or_eq_true_iff.mp h with h | h
  · have := isAlphanum_iff.mp h
    omega
  · obtain rfl := eq_of_beq h
    decide

theorem isNamePart_of_isNameChar {c : Char} (h : isNameChar c = true) : isNamePart c = true := by
  rw [isNamePart]
  exact Bool.or_eq_true_iff.mpr (.inl h)

theorem continuesName_of_isNameChar {c : Char} (h : isNameChar c = true) : continuesName c = true :=
  forall_ascii (P := fun c => isNameChar c = true → continuesName c = true)
    (by decide) (toNat_of_isNameChar h) h

theorem isNameChar_of_isStart {c : Char} (h : isStart c = true) : isNameChar c = true := by
  simp only [isStart, isNameChar, Char.isAlphanum, Bool.or_eq_true] at h ⊢
  exact h.imp_left .inl

theorem startsName_of_isStart {c : Char} (h : isStart c = true) : startsName c = true :=
  forall_ascii (P := fun c => isStart c = true → startsName c = true) (by decide)
    (toNat_of_isNameChar (isNameChar_of_isStart h)) h

/-- A character that stands between tokens or starts one, and no name goes on with it. -/
theorem facts_of_isStart {c : Char} (h : isStart c = true) : c ≠ '\n' ∧ c ≠ '\\' ∧
    (c == ' ' || c == '\t' || c.toNat == 12) = false ∧ (c == '#') = false ∧
    (c == '"' || c == '\'') = false ∧
    c.isDigit = false ∧ (c == '.') = false ∧ isNamePart c = true :=
  forall_ascii (P := fun c => isStart c = true → c ≠ '\n' ∧ c ≠ '\\' ∧
    (c == ' ' || c == '\t' || c.toNat == 12) = false ∧ (c == '#') = false ∧
    (c == '"' || c == '\'') = false ∧
    c.isDigit = false ∧ (c == '.') = false ∧ isNamePart c = true) (by decide)
    (toNat_of_isNameChar (isNameChar_of_isStart h)) h

theorem tokens_word {w : List Char} (hw : IsWord w) {d : Char} (hd : isNamePart d = false)
    (fuel : Nat) (p : Place)
    (rest : List Char) : tokens (fuel + 1) p (w ++ d :: rest) = named fuel p w (d :: rest) := by
  obtain ⟨c, cs, rfl, hc⟩ := hw.start
  obtain ⟨hnewline, hslash, hblank, hhash, hquote, hdigit, hdot, hpart⟩ := facts_of_isStart hc
  have hchars : ∀ x ∈ c :: cs, isNamePart x = true := fun x hx =>
    isNamePart_of_isNameChar (hw.chars x hx)
  have htake : (c :: cs ++ d :: rest).takeWhile isNamePart = c :: cs := by
    rw [List.takeWhile_append_of_pos hchars, List.takeWhile_cons_of_neg (by simp [hd]),
      List.append_nil]
  have hdrop : (c :: cs ++ d :: rest).dropWhile isNamePart = d :: rest := by
    rw [List.dropWhile_append_of_pos hchars, List.dropWhile_cons_of_neg (by simp [hd])]
  rw [List.cons_append] at htake hdrop ⊢
  rw [tokens_cons hnewline hslash, hblank, hhash, hquote, hdigit, hdot, hpart, htake, hdrop]
  rfl

theorem misfit?_of_isWord {w : List Char} (hw : IsWord w) : misfit? w = none := by
  obtain ⟨c, cs, rfl, hc⟩ := hw.start
  rw [misfit?, startsName_of_isStart hc]
  refine List.find?_eq_none.mpr fun x hx => ?_
  simp [continuesName_of_isNameChar (hw.chars x (List.mem_cons_of_mem _ hx))]

/-- A word that no quote follows is a name. -/
theorem tokens_name {w : List Char} (hw : IsWord w) {d : Char} (hd : isNamePart d = false)
    (hquote : isQuote d = false) (fuel : Nat) (p : Place) (rest : List Char) :
    tokens (fuel + 3) p (w ++ d :: rest) = p.token (.name (String.ofList w)) :: tokens fuel p
      (d :: rest) := by
  rw [tokens_word hw hd, named, ← isQuote_eq, hquote]
  simp [plainName, misfit?_of_isWord hw]

/-- A mark of a text with a quote behind it starts the text. -/
theorem tokens_marked {w : List Char} (hw : w = [] ∨ w = ['f'] ∨ w = ['r']) {q : Char}
    (hq : isQuote q = true) (fuel : Nat) (p : Place) (rest : List Char) :
    ∃ k, fuel ≤ k ∧ tokens (fuel + 2) p (w ++ q :: rest) = quoted k p w q rest := by
  rcases hw with rfl | rfl | rfl
  · have hfacts : q ≠ '\n' ∧ q ≠ '\\' ∧ (q == ' ' || q == '\t' || q.toNat == 12) = false ∧
        (q == '#') = false := by
      rcases isQuote_iff.mp hq with rfl | rfl <;> decide
    obtain ⟨hnewline, hslash, hblank, hhash⟩ := hfacts
    refine ⟨fuel + 1, Nat.le_succ fuel, ?_⟩
    rw [List.nil_append, tokens_cons hnewline hslash, hblank, hhash, ← isQuote_eq, hq]
    rfl
  all_goals
    have hpart : isNamePart q = false := by
      rcases isQuote_iff.mp hq with rfl | rfl <;> decide
    refine ⟨fuel, Nat.le_refl fuel, ?_⟩
    rw [tokens_word ⟨⟨_, _, rfl, by decide⟩, List.all_eq_true.mp (by decide)⟩ hpart, named,
      ← isQuote_eq, hq, show isStringMark _ = true by decide]
    rfl

/-! ## Numbers -/

/-- The character ends a number. -/
def endsNumber (d : Char) : Bool := !isNameChar d && d != '.'

theorem isJoined_eq (d : Char) : Number.isJoined d = isNameChar d := rfl

theorem fraction_of_endsNumber {d : Char} (hd : endsNumber d = true) (rest : List Char) :
    Number.fraction (d :: rest) = .ok (d :: rest) := by
  obtain ⟨hname, hdot⟩ : isNameChar d = false ∧ d ≠ '.' := by simpa [endsNumber] using hd
  have hletter {c : Char} (hc : isNameChar c = true) : (d == c) = false := by
    refine beq_eq_false_iff_ne.mpr fun heq => ?_
    rw [heq, hc] at hname
    cases hname
  have hends : Number.ends "decimal" (d :: rest) = .ok (d :: rest) := by
    simp [Number.ends, isJoined_eq, hname]
  have himaginary : Number.imaginary (d :: rest) = .ok (d :: rest) := by
    rw [Number.imaginary, hletter (c := 'j') rfl, hletter (c := 'J') rfl]
    exact hends
  have hexponent : Number.exponent (d :: rest) = .ok (d :: rest) := by
    simp [Number.exponent, hletter (c := 'e') rfl, hletter (c := 'E') rfl, himaginary]
  rw [Number.fraction]
  · exact hexponent
  · simp [hdot]

theorem not_digit_of_endsNumber {d : Char} (hd : endsNumber d = true) :
    d.isDigit = false ∧ d ≠ '_' ∧ d ≠ '0' := by
  obtain ⟨hname, -⟩ : isNameChar d = false ∧ d ≠ '.' := by simpa [endsNumber] using hd
  simp only [isNameChar, Char.isAlphanum, Bool.or_eq_false_iff, beq_eq_false_iff_ne] at hname
  refine ⟨hname.1.2, hname.2, ?_⟩
  rintro rfl
  simp at hname

theorem read_zero {d : Char} (hd : endsNumber d = true) (rest : List Char) :
    Number.read ('0' :: d :: rest) = .ok (d :: rest) := by
  obtain ⟨hdigit, hunderscore, hzero⟩ := not_digit_of_endsNumber hd
  obtain ⟨hname, -⟩ : isNameChar d = false ∧ d ≠ '.' := by simpa [endsNumber] using hd
  have hletter {c : Char} (hc : isNameChar c = true) : (d == c) = false := by
    refine beq_eq_false_iff_ne.mpr fun heq => ?_
    rw [heq, hc] at hname
    cases hname
  have hzeros : Number.zeros (d :: rest) = .ok (d :: rest) := by
    rw [Number.zeros] <;> simp [hunderscore, hzero]
  simp only [Number.read, Number.behindZero]
  simp [hletter (c := 'x') rfl, hletter (c := 'X') rfl, hletter (c := 'o') rfl,
    hletter (c := 'O') rfl,
    hletter (c := 'b') rfl, hletter (c := 'B') rfl, hzeros, Except.bind, hdigit,
    fraction_of_endsNumber hd]

theorem decimalTail_of_digits {ds : List Char} (hds : ∀ c ∈ ds, c.isDigit = true) {d : Char}
    (hd : endsNumber d = true)
    (rest : List Char) : Number.decimalTail (ds ++ d :: rest) = .ok (d :: rest) := by
  obtain ⟨hdigit, hunderscore, -⟩ := not_digit_of_endsNumber hd
  induction ds with
  | nil => 
    rw [List.nil_append, Number.decimalTail]
    · simp [hdigit, hunderscore]
    · simp [hunderscore]
  | cons c ds ih =>
    have hc := hds c List.mem_cons_self
    have hne : c ≠ '_' := by rintro rfl; cases hc
    rw [List.cons_append, Number.decimalTail]
    · simp [hc, ih fun c hc => hds c (List.mem_cons_of_mem _ hc)]
    · simp [hne]

theorem read_digits {c : Char} {ds : List Char} (hds : ∀ x ∈ c :: ds, x.isDigit = true)
    (hc : c ≠ '0') {d : Char}
    (hd : endsNumber d = true) (rest : List Char) :
    Number.read (c :: ds ++ d :: rest) = .ok (d :: rest) := by
  have hdot : c ≠ '.' := by
    rintro rfl
    exact absurd (hds '.' List.mem_cons_self) (by decide)
  have htail := decimalTail_of_digits hds hd rest
  rw [List.cons_append] at htail ⊢
  rw [Number.read]
  · rw [htail]
    exact fraction_of_endsNumber hd rest
  · simp [hdot]
  · simp [hc]

theorem tokens_number {c : Char} (hc : c.isDigit = true) {cs behind : List Char}
    (hread : Number.read (c :: cs) = .ok behind)
    (fuel : Nat) (p : Place) :
    tokens (fuel + 1) p (c :: cs) = p.token .number :: tokens fuel p behind := by
  have hlt : c.toNat < 128 := by
    have halnum : c.isAlphanum = true := by simp [Char.isAlphanum, hc]
    have := isAlphanum_iff.mp halnum
    omega
  have hfacts : c ≠ '\n' ∧ c ≠ '\\' ∧ (c == ' ' || c == '\t' || c.toNat == 12) = false ∧
      (c == '#') = false ∧
      (c == '"' || c == '\'') = false :=
      forall_ascii (P := fun c => c.isDigit = true → c ≠ '\n' ∧ c ≠ '\\' ∧
      (c == ' ' || c == '\t' || c.toNat == 12) = false ∧ (c == '#') = false ∧
      (c == '"' || c == '\'') = false)
      (by decide) hlt hc
  obtain ⟨hnewline, hslash, hblank, hhash, hquote⟩ := hfacts
  rw [tokens_cons hnewline hslash, hblank, hhash, hquote, hc, hread]
  rfl

/-! ## Texts -/

theorem readString_short {q : Char} {cs behind : List Char} {n : Nat}
    (hcs : [q, q].isPrefixOf cs = false)
    (h : skipShort q 0 cs = (some behind, n)) (line : Nat) :
    readString q line cs = .ok (behind, n) := by
  simp [readString, hcs, h]

theorem readString_long {q : Char} {cs behind : List Char} {n : Nat}
    (h : skipLong q 0 cs = some (behind, n)) (line : Nat) :
    readString q line (q :: q :: cs) = .ok (behind, n) := by
  simp [readString, List.isPrefixOf, h]

theorem quoted_eq {q : Char} {cs behind : List Char} {n line : Nat}
    (h : readString q line cs = .ok (behind, n)) (fuel : Nat)
    {p : Place} (hline : p.line = line) (w : List Char) : quoted (fuel + 1) p w q cs =
      p.token (.string (w.any (·.toLower == 'b')) (w.any (·.toLower == 'f'))) ::
        tokens fuel { p with line := p.line + n } behind := by
  rw [quoted, hline, h]

end FlowMachine.Module
