import FlowMachine.Proofs.Module.Data
import FlowMachine.Proofs.Module.Ends
import FlowMachine.Proofs.Text.Literals

/-!
# Written data

Literals of texts are one token, and lists, tuples and mappings that are written with literals,
blanks, line ends and comments are read as data.
-/
namespace FlowMachine.Module

open Text Scan

variable {cs ds rest : List Char} {R : List Token → Prop} {opened : List Char} {c q : Char}

/-! ## Literals -/

/-- The character stands for itself between quotes of one line. -/
def IsSelf (q c : Char) : Prop := c ≠ q ∧ c ≠ '\\' ∧ c ≠ '\n' ∧ isClear c = true

/-- Between quotes a character is itself, or an escape that neither ends the text nor its line. -/
theorem literalChar_cases (hq : isQuote q = true) (c : Char) :
    (∃ d, literalChar q c = [d] ∧ IsSelf q d) ∨
    ∃ d ds, literalChar q c = '\\' :: d :: ds ∧ d ≠ '\n' ∧ isClear d = true ∧
    ∀ x ∈ ds, IsSelf q x := by
  have hdigits (width n : Nat) : ∀ x ∈ hexDigits width n, IsSelf q x := by
    intro x hx
    have hsome := Literal.isSome_of_mem_hexDigits hx
    have hne {y : Char} (hy : (Json.hexValue? y).isSome = false) : x ≠ y := by
      rintro rfl
      rw [hsome] at hy
      cases hy
    refine ⟨hne ?_, hne (by decide), hne (by decide),
      isClear_iff.mpr ⟨hne (by decide), hne (by decide)⟩⟩
    rcases isQuote_iff.mp hq with rfl | rfl <;> decide
  unfold literalChar
  split_ifs with hself htab hfeed hreturn hvisible hbyte hunit
  · have hne {y : Char} (hy : isQuote y = false ∧ y ≠ '\\') : c ≠ y := by
      rintro rfl
      rcases Bool.or_eq_true_iff.mp hself with h | h
      · rw [eq_of_beq h, hq] at hy
        cases hy.1
      · exact hy.2 (eq_of_beq h)
    exact .inr ⟨c, [], rfl, hne (by decide),
      isClear_iff.mpr ⟨hne (by decide), hne (by decide)⟩, nofun⟩
  · exact .inr ⟨'t', [], rfl, by decide, by decide, nofun⟩
  · exact .inr ⟨'n', [], rfl, by decide, by decide, nofun⟩
  · exact .inr ⟨'r', [], rfl, by decide, by decide, nofun⟩
  · have hself : c ≠ q ∧ c ≠ '\\' := by simpa using hself
    have hnul : c ≠ Char.ofNat 0 := by
      rintro rfl
      revert hvisible
      decide
    exact .inl ⟨c, rfl, hself.1, hself.2, by simpa using hfeed,
      isClear_iff.mpr ⟨by simpa using hreturn, hnul⟩⟩
  · exact .inr ⟨'x', _, rfl, by decide, by decide, hdigits _ _⟩
  · exact .inr ⟨'u', _, rfl, by decide, by decide, hdigits _ _⟩
  · exact .inr ⟨'U', _, rfl, by decide, by decide, hdigits _ _⟩

theorem skipShort_of_isSelf {body : List Char} (hbody : ∀ x ∈ body, IsSelf q x) (b : Nat)
    (rest : List Char) :
    skipShort q b (body ++ rest) = skipShort q b rest := by
  induction body with
  | nil => rfl
  | cons x body ih =>
    obtain ⟨hx, hslash, hnewline, -⟩ := hbody x List.mem_cons_self
    rw [List.cons_append, skipShort_cons hx hnewline hslash,
      ih fun y hy => hbody y (List.mem_cons_of_mem _ hy)]

theorem skipShort_literalChar (hq : isQuote q = true) (c : Char) (b : Nat) (rest : List Char) :
    skipShort q b (literalChar q c ++ rest) = skipShort q b rest := by
  obtain ⟨d, heq, hd⟩ | ⟨d, ds, heq, hd, -, hds⟩ := literalChar_cases hq c
  · rw [heq]
    exact skipShort_of_isSelf (by simpa using hd) b rest
  · rw [heq, List.cons_append, List.cons_append, skipShort_escape hd, skipShort_of_isSelf hds]

theorem skipShort_literalChars (hq : isQuote q = true) (cs : List Char) (b : Nat)
    (rest : List Char) :
    skipShort q b (cs.flatMap (literalChar q) ++ q :: rest) = (some rest, b) := by
  induction cs with
  | nil => exact skipShort_quote hq b
  | cons c cs ih => rw [List.flatMap_cons, List.append_assoc, skipShort_literalChar hq, ih]

theorem isQuote_quoteOf (cs : List Char) : isQuote (quoteOf cs) = true := by
  unfold quoteOf
  split_ifs <;> rfl

theorem isClear_of_isQuote (hq : isQuote q = true) : isClear q = true := by
  rcases isQuote_iff.mp hq with rfl | rfl <;> decide

theorem clear_literal (s : String) : ∀ c ∈ (literal s).toList, isClear c = true := by
  have hq : isQuote (quoteOf s.toList) = true := isQuote_quoteOf s.toList
  simp only [literal, literalChars, String.toList_ofList, List.mem_append, List.mem_cons,
    List.mem_flatMap, List.not_mem_nil, or_false]
  rintro c ((rfl | ⟨d, -, hmem⟩) | rfl)
  · exact isClear_of_isQuote hq
  · obtain ⟨x, heq, hx⟩ | ⟨x, xs, heq, -, hx, hxs⟩ := literalChar_cases hq d
    · rw [heq, List.mem_singleton] at hmem
      exact hmem ▸ hx.2.2.2
    · rw [heq, List.mem_cons, List.mem_cons] at hmem
      rcases hmem with rfl | rfl | hmem
      · decide
      · exact hx
      · exact (hxs c hmem).2.2.2
  · exact isClear_of_isQuote hq

/-- What a literal has behind its opening quote does not make three quotes with it. -/
theorem isPrefixOf_literalChars (hq : isQuote q = true) (cs : List Char) {behind : List Char}
    (hbehind : EndsOperand behind) :
    [q, q].isPrefixOf (cs.flatMap (literalChar q) ++ q :: behind) = false := by
  cases cs with
  | nil =>
    obtain ⟨c, rest, rfl, hc⟩ := hbehind
    have hne : q ≠ c := by
      rintro rfl
      simp [endsOperand, hq] at hc
    simp [List.isPrefixOf, hne]
  | cons c cs =>
    have hslash : q ≠ '\\' := by
      rintro rfl
      cases hq
    obtain ⟨d, heq, hd⟩ | ⟨d, ds, heq, -⟩ := literalChar_cases hq c
    · simp [heq, List.isPrefixOf, hd.1.symm]
    · simp [heq, List.isPrefixOf, hslash]

/-- A literal is one token. -/
theorem tokens_literal (s : String) {behind : List Char} (hbehind : EndsOperand behind) (fuel : Nat)
    (p : Place) :
    ∃ k, fuel ≤ k ∧ tokens (fuel + 3) p ((literal s).toList ++ behind) =
      p.token (.string false false) :: tokens k p behind := by
  have hq : isQuote (quoteOf s.toList) = true := isQuote_quoteOf s.toList
  have hskip := skipShort_literalChars hq s.toList 0 behind
  have hread := readString_short (isPrefixOf_literalChars hq s.toList hbehind) hskip p.line
  obtain ⟨k, hk, heq⟩ := tokens_marked (w := []) (.inl rfl) hq (fuel + 1) p
    (s.toList.flatMap (literalChar (quoteOf s.toList)) ++ quoteOf s.toList :: behind)
  obtain ⟨k, rfl⟩ : ∃ j, k = j + 1 := ⟨k - 1, by omega⟩
  rw [quoted_eq hread k rfl []] at heq
  exact ⟨k, by omega, by simpa [literal, literalChars] using heq⟩

/-! ## Data -/

/-- The characters up to the closing ones of given brackets are tokens with a property. Outside of
brackets the next character has to end an operand. -/
structure Writes (opened : List Char) (R : List Token → Prop) (cs : List Char) : Prop where
  clear : ∀ c ∈ cs, isClear c = true
  reads : ∀ (fuel : Nat) (p : Place) (behind : List Char) (inner outer : List (Char × Nat)),
    p.brackets = inner ++ outer → inner.map Prod.fst = opened → (opened = [] → EndsOperand behind) →
    3 * (cs.length + behind.length) + 1 ≤ fuel →
    ∃ us fuel', ∃ p' : Place, tokens fuel p (cs ++ behind) = us ++ tokens fuel' p' behind ∧ R us ∧
    p'.brackets = outer ∧
      p'.indents = p.indents ∧ 3 * behind.length + 1 ≤ fuel'

theorem writes_literal (s : String) : Writes [] IsOperand (literal s).toList where
  clear := clear_literal s
  reads fuel p behind inner outer hp hinner hbehind hfuel := by
    obtain rfl := List.map_eq_nil_iff.mp hinner
    have hlength : 2 ≤ (literal s).toList.length := by simp [literal, literalChars]
    obtain ⟨fuel, rfl⟩ : ∃ k, fuel = k + 3 := ⟨fuel - 3, by omega⟩
    obtain ⟨k, hk, heq⟩ := tokens_literal s (hbehind rfl) fuel p
    exact ⟨[p.token (.string false false)], k, p, heq, isOperand_string false _ _, hp,
      rfl, by omega⟩

theorem isWord_of_all {w : List Char} (h : (w.head?.any isStart && w.all isNameChar) = true) :
    IsWord w := by
  obtain ⟨hstart, hchars⟩ := Bool.and_eq_true_iff.mp h
  obtain ⟨c, hc, hstart⟩ := (Option.any_eq_true _ _).mp hstart
  obtain ⟨rest, rfl⟩ := List.head?_eq_some_iff.mp hc
  exact ⟨⟨c, rest, rfl, hstart⟩, List.all_eq_true.mp hchars⟩

theorem Scan.EndsOperand.cons {behind : List Char} (h : EndsOperand behind) :
    ∃ d rest, behind = d :: rest ∧ isNamePart d = false ∧ isQuote d = false ∧ d ≠ '.' := by
  obtain ⟨d, rest, rfl, hd⟩ := h
  simp only [endsOperand, Bool.and_eq_true, Bool.not_eq_true', bne_iff_ne] at hd
  exact ⟨d, rest, rfl, hd.1.1, hd.1.2, hd.2⟩

theorem writes_constant {word : String} (h : word ∈ Expr.constants) :
    Writes [] IsOperand word.toList where
  clear := List.all_eq_true.mp
    ((by decide : ∀ word ∈ Expr.constants, word.toList.all isClear = true) word h)
  reads fuel p behind inner outer hp hinner hbehind hfuel := by
    obtain rfl := List.map_eq_nil_iff.mp hinner
    obtain ⟨d, rest, rfl, hd, hquote, -⟩ := (hbehind rfl).cons
    have hlength := (by decide : ∀ word ∈ Expr.constants, 4 ≤ word.toList.length) word h
    have hword : IsWord word.toList := isWord_of_all
      ((by decide : ∀ word ∈ Expr.constants,
        (word.toList.head?.any isStart && word.toList.all isNameChar) = true) word h)
    obtain ⟨fuel, rfl⟩ : ∃ k, fuel = k + 3 := ⟨fuel - 3, by omega⟩
    refine ⟨[p.token (.name word)], fuel, p, ?_, isOperand_constant h _ _, hp, rfl, by omega⟩
    rw [tokens_name hword hd hquote, String.ofList_toList]
    rfl

namespace Writes

variable {opener closer : Sign}

theorem mono {R' : List Token → Prop} (h : Writes opened R cs) (hR : ∀ us, R us → R' us) :
    Writes opened R' cs where
  clear := h.clear
  reads fuel p behind inner outer hp hinner hbehind hfuel := by
    obtain ⟨us, fuel', p', heq, hus, hrest⟩ :=
      h.reads fuel p behind inner outer hp hinner hbehind hfuel
    exact ⟨us, fuel', p', heq, hR us hus, hrest⟩

/-- A bracket opens what stands up to its closing bracket. -/
theorem bracket {R' : List Token → Prop} (h : Writes [c] R cs) {s : Sign} (hs : (c, s) ∈ openers)
    (hR : ∀ us line level, R us → R' (⟨s.lexeme, line, level⟩ :: us)) : Writes [] R' (c :: cs) where
  clear := List.forall_mem_cons.mpr
    ⟨(by decide : ∀ pair ∈ openers, isClear pair.1 = true) _ hs, h.clear⟩
  reads fuel p behind inner outer hp hinner hbehind hfuel := by
    obtain rfl := List.map_eq_nil_iff.mp hinner
    rw [List.length_cons] at hfuel
    obtain ⟨fuel, rfl⟩ : ∃ k, fuel = k + 1 := ⟨fuel - 1, by omega⟩
    obtain ⟨us, fuel', p', heq, hus, hp', hindents, hfuel'⟩ :=
      h.reads fuel { p with brackets := (c, p.line) :: p.brackets } behind
        [(c, p.line)] p.brackets rfl rfl
        (fun h => by cases h) (by omega)
    refine ⟨⟨s.lexeme, p.line, p.brackets.length + 1⟩ :: us, fuel', p', ?_, hR us _ _ hus,
      hp'.trans hp, hindents, hfuel'⟩
    rw [List.cons_append, tokens_opener hs, heq]
    rfl

theorem list (h : Writes ['['] (IsItems "]") cs) : Writes [] IsDisplay ('[' :: cs) :=
  h.bracket (s := .openBracket) (by decide) fun _ line level hus => isDisplay_list hus line level

theorem mapping (h : Writes ['\x7b'] IsEntries cs) : Writes [] IsDisplay ('\x7b' :: cs) :=
  h.bracket (s := .openBrace) (by decide) fun _ line level hus => isDisplay_mapping hus line level

theorem isOperand (h : Writes [] IsDisplay cs) : Writes [] IsOperand cs :=
  h.mono fun _ => IsDisplay.isOperand

/-- The closing bracket. -/
theorem close {s : Sign} (hs : (c, s, opener) ∈ closers)
    (hR : ∀ line level, R [⟨s.lexeme, line, level⟩]) :
    Writes [bracketChar opener] R [c] where
  clear := List.forall_mem_singleton.mpr
    ((by decide : ∀ triple ∈ closers, isClear triple.1 = true) _ hs)
  reads fuel p behind inner outer hp hinner hbehind hfuel := by
    obtain ⟨⟨mark, line⟩, inner, rfl, rfl, hinner'⟩ := List.map_eq_cons_iff.mp hinner
    obtain rfl := List.map_eq_nil_iff.mp hinner'
    obtain ⟨fuel, rfl⟩ : ∃ k, fuel = k + 1 := ⟨fuel - 1, by omega⟩
    refine ⟨[⟨s.lexeme, p.line, outer.length⟩], fuel, { p with brackets := outer }, ?_, hR _ _,
      rfl, rfl, ?_⟩
    · rw [List.singleton_append, tokens_closer hs hp]
      rfl
    · rw [List.length_singleton] at hfuel
      omega

/-- Characters without a token. -/
theorem skip (cs : List Char) (h : Writes opened R ds) (hopened : opened ≠ [])
    (hclear : ∀ c ∈ cs, isClear c = true) {k : Nat} (hk : k ≤ 3 * cs.length)
    (hskip : ∀ (fuel : Nat) (p : Place) (rest : List Char), p.brackets ≠ [] → ∃ p' : Place,
    p'.brackets = p.brackets ∧
      p'.indents = p.indents ∧ tokens (fuel + k) p (cs ++ rest) = tokens fuel p' rest) :
      Writes opened R (cs ++ ds) where
  clear := List.forall_mem_append.mpr ⟨hclear, h.clear⟩
  reads fuel p behind inner outer hp hinner hbehind hfuel := by
    rw [List.length_append] at hfuel
    obtain ⟨fuel, rfl⟩ : ∃ j, fuel = j + k := ⟨fuel - k, by omega⟩
    have hne : p.brackets ≠ [] := by
      rw [hp]
      intro hnil
      rw [(List.append_eq_nil_iff.mp hnil).1] at hinner
      exact hopened hinner.symm
    obtain ⟨p', hbrackets, hindents, heq⟩ := hskip fuel p (ds ++ behind) hne
    rw [List.append_assoc, heq, ← hindents]
    exact h.reads fuel p' behind inner outer (hbrackets.trans hp) hinner hbehind (by omega)

theorem blank (h : Writes opened R cs) (hopened : opened ≠ []) : Writes opened R (' ' :: cs) :=
  h.skip [' '] hopened (List.forall_mem_singleton.mpr (by decide)) (k := 1) (by decide)
    fun fuel p rest _ => ⟨p, rfl, rfl, by
      rw [List.singleton_append, tokens_cons (by decide) (by decide)]
      rfl⟩

theorem newline (h : Writes opened R cs) (hopened : opened ≠ []) : Writes opened R ('\n' :: cs) :=
  h.skip ['\n'] hopened (List.forall_mem_singleton.mpr (by decide)) (k := 1) (by decide)
    fun fuel p rest hp => ⟨{ p with line := p.line + 1 }, rfl, rfl, by
      have hne : p.brackets.isEmpty = false := by simpa using hp
      rw [List.singleton_append, tokens_newline, hne]
      rfl⟩

/-- A comment with the end of its line. -/
theorem comment (h : Writes opened R ds) (hopened : opened ≠ [])
    (hcs : ∀ c ∈ cs, c ≠ '\n' ∧ isClear c = true) :
    Writes opened R (('#' :: cs ++ ['\n']) ++ ds) := by
  refine h.skip _ hopened ?_ (k := 2) (by simp; omega) fun fuel p rest hp =>
    ⟨{ p with line := p.line + 1 }, rfl, rfl, ?_⟩
  · exact List.forall_mem_append.mpr
      ⟨List.forall_mem_cons.mpr ⟨by decide, fun c hc => (hcs c hc).2⟩,
        List.forall_mem_singleton.mpr (by decide)⟩
  · have hne : p.brackets.isEmpty = false := by simpa using hp
    have hdrop : (cs ++ '\n' :: rest).dropWhile (· != '\n') = '\n' :: rest := by
      rw [List.dropWhile_append_of_pos (by simpa using fun c hc => (hcs c hc).1),
        List.dropWhile_cons_of_neg (by simp)]
    have hcomment : tokens (fuel + 2) p ('#' :: (cs ++ '\n' :: rest)) =
        tokens (fuel + 1) p ((cs ++ '\n' :: rest).dropWhile (· != '\n')) := by
      rw [tokens_cons (by decide) (by decide)]
      rfl
    have hsplit : '#' :: cs ++ ['\n'] ++ rest = '#' :: (cs ++ '\n' :: rest) := by simp
    rw [hsplit, hcomment, hdrop, tokens_newline, hne]
    rfl

/-- An operand with what follows it inside of the same brackets. -/
theorem operand {P : List Token → Prop} (hfront : Writes [] P cs) (hends : EndsOperand ds)
    {R' : List Token → Prop} (hback : Writes opened R ds)
    (hR : ∀ us vs, P us → R vs → R' (us ++ vs)) :
    Writes opened R' (cs ++ ds) where
  clear := List.forall_mem_append.mpr ⟨hfront.clear, hback.clear⟩
  reads fuel p behind inner outer hp hinner hbehind hfuel := by
    rw [List.length_append] at hfuel
    have hends' : EndsOperand (ds ++ behind) := by
      obtain ⟨c, rest, rfl, hc⟩ := hends
      exact ⟨c, rest ++ behind, rfl, hc⟩
    obtain ⟨us, fuel₁, p₁, heq, hus, hp₁, hindents, hfuel₁⟩ :=
      hfront.reads fuel p (ds ++ behind) [] p.brackets rfl rfl (fun _ => hends')
        (by rw [List.length_append]; omega)
    rw [List.length_append] at hfuel₁
    obtain ⟨vs, fuel₂, p₂, heq', hvs, hp₂, hindents', hfuel₂⟩ :=
      hback.reads fuel₁ p₁ behind inner outer (hp₁.trans hp) hinner hbehind (by omega)
    exact ⟨us ++ vs, fuel₂, p₂, by rw [List.append_assoc, heq, heq', List.append_assoc],
      hR us vs hus hvs, hp₂, hindents'.trans hindents, hfuel₂⟩

/-- A mark with what follows it inside of the same brackets. -/
theorem mark {s : Sign} {R' : List Token → Prop} (h : Writes opened R cs) (hc : isClear c = true)
    (htokens : ∀ fuel p rest, tokens (fuel + 1) p (c :: (cs ++ rest)) = p.token s.lexeme ::
    tokens fuel p (cs ++ rest))
    (hR : ∀ us line level, R us → R' (⟨s.lexeme, line, level⟩ :: us)) :
    Writes opened R' (c :: cs) where
  clear := List.forall_mem_cons.mpr ⟨hc, h.clear⟩
  reads fuel p behind inner outer hp hinner hbehind hfuel := by
    rw [List.length_cons] at hfuel
    obtain ⟨fuel, rfl⟩ : ∃ k, fuel = k + 1 := ⟨fuel - 1, by omega⟩
    obtain ⟨us, fuel', p', heq, hus, hrest⟩ :=
      h.reads fuel p behind inner outer hp hinner hbehind (by omega)
    exact ⟨p.token s.lexeme :: us, fuel', p', by rw [List.cons_append, htokens, heq]; rfl,
      hR us _ _ hus, hrest⟩

/-- The tokens are a mark and others with a property. -/
def Behind (mark : String) (R : List Token → Prop) (us : List Token) : Prop :=
  ∃ line level vs, us = ⟨.mark mark, line, level⟩ :: vs ∧ R vs

theorem comma (h : Writes opened R cs) : Writes opened (Behind "," R) (',' :: cs) := by
  refine h.mark (s := .comma) (by decide) (fun fuel p rest => ?_) fun us line level hus =>
    ⟨line, level, us, rfl, hus⟩
  rw [tokens_mark (by decide) fuel p rfl, markTokens, markAt?_eq (by decide)]
  rfl

theorem colon (h : Writes opened R (' ' :: cs)) :
    Writes opened (Behind ":" R) (':' :: ' ' :: cs) := by
  refine h.mark (s := .colon) (by decide) (fun fuel p rest => ?_) fun us line level hus =>
    ⟨line, level, us, rfl, hus⟩
  exact tokens_single (by decide) (by decide) (by decide) fuel p (cs ++ rest)

/-- An operand with a mark behind it, and with what stands behind that. -/
theorem operand_behind {P : List Token → Prop} (hfront : Writes [] P ds) {mark : String}
    (hback : Writes opened (Behind mark R) (c :: cs)) (hc : endsOperand c = true)
    {R' : List Token → Prop}
    (hR : ∀ us vs line level, P us → R vs → R' (us ++ ⟨.mark mark, line, level⟩ :: vs)) :
    Writes opened R' (ds ++ c :: cs) :=
  hfront.operand ⟨c, cs, rfl, hc⟩ hback fun us _ hus ⟨line, level, vs, heq, hvs⟩ =>
    heq ▸ hR us vs line level hus hvs

/-- The tokens are an operand, a comma, and others with a property. -/
def Parted (R : List Token → Prop) (us : List Token) : Prop :=
  ∃ vs line level ws, us = vs ++ ⟨.mark ",", line, level⟩ :: ws ∧ IsOperand vs ∧ R ws

theorem parted (hds : Writes [] IsOperand ds) (hcs : Writes opened R cs) :
    Writes opened (Parted R) (ds ++ ',' :: cs) :=
  hds.operand_behind hcs.comma (by decide) fun vs ws line level hvs hws =>
    ⟨vs, line, level, ws, rfl, hvs, hws⟩

/-! ## Elements -/

section Items

variable {closer : String} (hcloser : closer ∈ [")", "]"])

include hcloser

theorem item (hds : Writes [] IsOperand ds) (hcs : Writes opened (IsItems closer) cs) :
    Writes opened (IsItems closer) (ds ++ ',' :: cs) :=
  (hds.parted hcs).mono fun _ ⟨_, line, level, _, heq, hvs, hws⟩ =>
    heq ▸ isItems_cons hvs hcloser line level hws

end Items

theorem closeList : Writes ['['] (IsItems "]") [']'] :=
  close (by decide : (']', Sign.closeBracket, Sign.openBracket) ∈ closers) fun line level =>
    isItems_close "]" line level

theorem closeTuple : Writes ['('] (IsItems ")") [')'] :=
  close (by decide : (')', Sign.closeParen, Sign.openParen) ∈ closers) fun line level =>
    isItems_close ")" line level

theorem lastOfList (hds : Writes [] IsOperand ds) : Writes ['['] (IsItems "]") (ds ++ [']']) :=
  hds.operand ⟨']', [], rfl, by decide⟩
    (close (R := fun us => ∃ line level, us = [⟨.mark "]", line, level⟩])
      (by decide : (']', Sign.closeBracket, Sign.openBracket) ∈ closers) fun line level =>
      ⟨line, level, rfl⟩)
    fun _ _ hus ⟨line, level, heq⟩ => heq ▸ isItems_last hus (by decide) line level

theorem lastOfTuple (hds : Writes [] IsOperand ds) : Writes ['('] (IsItems ")") (ds ++ [')']) :=
  hds.operand ⟨')', [], rfl, by decide⟩
    (close (R := fun us => ∃ line level, us = [⟨.mark ")", line, level⟩])
      (by decide : (')', Sign.closeParen, Sign.openParen) ∈ closers) fun line level =>
      ⟨line, level, rfl⟩)
    fun _ _ hus ⟨line, level, heq⟩ => heq ▸ isItems_last hus (by decide) line level

theorem emptyTuple : Writes [] IsDisplay ['(', ')'] :=
  bracket (R := fun us => ∃ line level, us = [⟨.mark ")", line, level⟩]) (s := .openParen)
    (close (by decide : (')', Sign.closeParen, Sign.openParen) ∈ closers) fun line level =>
      ⟨line, level, rfl⟩) (by decide)
    fun _ line level ⟨line', level', heq⟩ => heq ▸ isDisplay_emptyTuple line level line' level'

theorem tuple (hds : Writes [] IsOperand ds) (hcs : Writes ['('] (IsItems ")") cs) :
    Writes [] IsDisplay ('(' :: (ds ++ ',' :: cs)) :=
  (hds.parted hcs).bracket (s := .openParen) (by decide)
    fun _ line level ⟨_, line', level', _, heq, hvs, hws⟩ =>
    heq ▸ isDisplay_tuple hvs hws line level line' level'

/-! ## Entries -/

theorem closeMapping : Writes ['\x7b'] IsEntries ['\x7d'] :=
  close (by decide : ('\x7d', Sign.closeBrace, Sign.openBrace) ∈ closers) fun line level =>
    isEntries_close line level

/-- An entry of a mapping. -/
theorem entry {key value : List Char} (hkey : Writes [] IsOperand key)
    (hvalue : Writes [] IsOperand value)
    (hcs : Writes ['\x7b'] IsEntries cs) :
    Writes ['\x7b'] IsEntries (key ++ ':' :: ' ' :: (value ++ ',' :: cs)) :=
  hkey.operand_behind ((hvalue.parted hcs).blank (by simp)).colon (by decide)
    fun _ _ line level hus ⟨_, line', level', _, heq, hvs, hws⟩ =>
      heq ▸ isEntries_cons hus hvs line level line' level' hws

/-- The tokens are an operand and a closing brace. -/
def Closed (us : List Token) : Prop :=
  ∃ vs line level, us = vs ++ [⟨.mark "\x7d", line, level⟩] ∧ IsOperand vs

/-- The last entry of a mapping. -/
theorem lastEntry {key value : List Char} (hkey : Writes [] IsOperand key)
    (hvalue : Writes [] IsOperand value) :
    Writes ['\x7b'] IsEntries (key ++ ':' :: ' ' :: (value ++ ['\x7d'])) := by
  have hbrace : Writes ['\x7b'] (fun us => ∃ line level, us = [⟨.mark "\x7d", line, level⟩])
      ['\x7d'] :=
    close (by decide : ('\x7d', Sign.closeBrace, Sign.openBrace) ∈ closers) fun line level =>
      ⟨line, level, rfl⟩
  have hclosed : Writes ['\x7b'] Closed (value ++ ['\x7d']) :=
    hvalue.operand ⟨'\x7d', [], rfl, by decide⟩ hbrace fun vs _ hvs ⟨line, level, heq⟩ =>
      ⟨vs, line, level, by rw [heq], hvs⟩
  exact hkey.operand_behind (hclosed.blank (by simp)).colon (by decide)
    fun _ _ line level hus ⟨_, line', level', heq, hvs⟩ =>
      heq ▸ isEntries_last hus hvs line level line' level'

end Writes

end FlowMachine.Module
