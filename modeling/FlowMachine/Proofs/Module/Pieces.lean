import FlowMachine.Proofs.Module.Written
import FlowMachine.Proofs.Emit.Docstrings

/-!
# Texts inside of lines

Words, literals, numbers and data lead from between two tokens to behind an operand, and texts in
docstrings and in comments lead back to the state in front of them.
-/
namespace FlowMachine.Module.Scan

open Text Emit

variable {S T : Scan} {c q : Char} {cs ds rest w : List Char}

/-! ## Stretches that change no state -/

theorem run_of_step (h : ∀ c ∈ cs, isClear c = true ∧ S.step c = some S) : S.run cs = some S := by
  induction cs with
  | nil => rfl
  | cons c cs ih =>
    obtain ⟨⟨hc, hstep⟩, hcs⟩ := List.forall_mem_cons.mp h
    simp [run, hc, hstep, ih hcs]

/-- Inside of texts and comments the character stands for itself. -/
def isTame (c : Char) : Bool := !isQuote c && c != '\\' && c != '\n' && isClear c

theorem isTame_of_isNameChar (h : isNameChar c = true) : isTame c = true :=
  forall_ascii (P := fun c => isNameChar c = true → isTame c = true)
    (by decide +kernel) (toNat_of_isNameChar h) h

/-- Whether tame characters may stand here and change nothing. -/
def isLoose : Mode → Bool
  | .long q => isQuote q
  | .short q => isQuote q
  | .comment _ => true
  | _ => false

theorem step_of_isTame (hmode : isLoose S.mode = true) (hc : isTame c = true) :
    isClear c = true ∧ S.step c = some S := by
  simp only [isTame, Bool.and_eq_true, Bool.not_eq_true', bne_iff_ne] at hc
  obtain ⟨⟨⟨hquote, hslash⟩, hnewline⟩, hreturn⟩ := hc
  have hne {q : Char} (hq : isQuote q = true) : c ≠ q := by
    rintro rfl
    rw [hq] at hquote
    cases hquote
  refine ⟨hreturn, ?_⟩
  obtain ⟨mode, brackets, indents, slots, headed, line⟩ := S
  cases mode with
  | long q => simp [step, longStep, hne (q := q) hmode, hslash]
  | short q => simp [step, hne (q := q) hmode, hslash, hnewline]
  | comment own => simp [step, hnewline]
  | _ => cases hmode

theorem leads_of_isTame (hmode : isLoose S.mode = true) (hcs : ∀ c ∈ cs, isTame c = true) :
    S.Leads S cs :=
  leads_of_run (run_of_step fun c hc => step_of_isTame hmode (hcs c hc))

/-! ## Words -/

theorem isClear_of_isNameChar (h : isNameChar c = true) : isClear c = true :=
  forall_ascii (P := fun c => isNameChar c = true → isClear c = true)
    (by decide +kernel) (toNat_of_isNameChar h) h

theorem clear_of_chars (hw : ∀ c ∈ w, isNameChar c = true) : ∀ c ∈ w, isClear c = true :=
  fun c hc => isClear_of_isNameChar (hw c hc)

theorem leads_word (hmode : S.mode = .inner) (hw : IsWord w) (hopen : isOpen w = false) :
    S.Leads { S with mode := .name } w := by
  intro rest hrest
  refine ⟨?_, List.not_mem_append (nul_not_mem_of_clear (clear_of_chars hw.chars)) hrest.2⟩
  rw [unifyBreaks_append (return_not_mem_of_clear (clear_of_chars hw.chars)), Good, hmode]
  exact Inside.of_eq (hrest.1 w hw hopen) rfl rfl rfl rfl

theorem leads_name (hmode : S.mode = .name) (hw : ∀ c ∈ w, isNameChar c = true) : S.Leads S w :=
  leads_of_run
    (run_of_step fun c hc => ⟨isClear_of_isNameChar (hw c hc), by simp [step, hmode, hw c hc]⟩)

/-- A word that is not reserved, and that is not looked for at the front of lines, is a name. -/
theorem isPlain_of_isWord (hw : IsWord w) (hkeyword : String.ofList w ∉ keywords)
    (hmatch : String.ofList w ≠ "match") :
    IsPlain (String.ofList w) := by
  have hstart {word : String} (heq : String.ofList w = word) :
      word.toList.head?.any isStart = true := by
    obtain ⟨c, rest, hcons, hc⟩ := hw.start
    simp [← heq, hcons, hc]
  refine ⟨hkeyword, fun hmem => ?_, fun hmem => ?_⟩
  · have hall : ∀ word ∈ absentWords, word ∈ keywords ∨ word.toList.head?.any isStart = false := by
      decide +kernel
    rcases hall _ hmem with h | h
    · exact hkeyword h
    · rw [hstart rfl] at h
      cases h
  · obtain ⟨s, hs, heq⟩ := List.mem_map.mp hmem
    have hall : ∀ s ∈ Sign.all, s.text ∈ keywords ∨ s.text = "match" ∨
        s.text.toList.head?.any isStart = false := by
      decide +kernel
    rcases hall s hs with h | h | h
    · exact hkeyword (heq ▸ h)
    · exact hmatch (heq ▸ h)
    · rw [hstart heq.symm] at h
      cases h

/-! ## Operands -/

theorem leads_behind {k : Kind} (hmode : S.mode = .inner) (hclear : ∀ c ∈ cs, isClear c = true)
    (h : ∀ behind, EndsOperand behind → (S.push k).Inside behind → S.Inside (cs ++ behind)) :
    S.Leads { S with mode := .behind k } cs := by
  intro rest ⟨⟨hends, hinside⟩, hnul⟩
  refine ⟨?_, List.not_mem_append (nul_not_mem_of_clear hclear) hnul⟩
  rw [unifyBreaks_append (return_not_mem_of_clear hclear), Good, hmode]
  exact h _ hends hinside

theorem leads_plain (hmode : S.mode = .inner) (hw : IsWord w)
    (hkeyword : String.ofList w ∉ keywords)
    (hmatch : String.ofList w ≠ "match") : S.Leads { S with mode := .behind .name } w := by
  refine leads_behind hmode (clear_of_chars hw.chars) fun behind hends hinside => ?_
  obtain ⟨d, rest, rfl, hd, hquote, -⟩ := hends.cons
  refine hinside.push ?_ fun fuel p =>
    ⟨fuel, Nat.le_refl _, p, _, rfl, rfl, tokens_name hw hd hquote fuel p rest,
    fun _ _ _ hts => .name _ _ _ (isPlain_of_isWord hw hkeyword hmatch) hts⟩
  obtain ⟨c, cs, rfl, -⟩ := hw.start
  simp only [List.length_append, List.length_cons]
  omega

theorem leads_literal (hmode : S.mode = .inner) (s : String) :
    S.Leads { S with mode := .behind .string } (literal s).toList := by
  refine leads_behind hmode (clear_literal s) fun behind hends hinside => ?_
  refine hinside.push (by simp [literal, literalChars]; omega) fun fuel p => ?_
  obtain ⟨k, hk, heq⟩ := tokens_literal s hends fuel p
  exact ⟨k, hk, p, _, rfl, rfl, heq, fun _ _ _ hts => .string false _ _ hts⟩

/-- A character that no mark goes on with ends a mark in front of it. -/
theorem leads_of_mark {d : Char} {sign : Sign} (hmode : S.mode = .mark d)
    (hsign : valueOf? d singles = some sign)
    (hruns : runsOn d c = false) (hc : c ≠ '*' ∧ c ≠ '\r')
    (h : (S.push (.sign sign)).Leads T (c :: cs)) :
    S.Leads T (c :: cs) := by
  intro rest hrest
  obtain ⟨hback, hnul⟩ := h rest hrest
  refine ⟨?_, hnul⟩
  rw [List.cons_append, unifyBreaks_cons hc.2] at hback ⊢
  rw [Good, hmode]
  exact (hback.inside rfl).mark (by simp) fun fuel p =>
    tokens_single (mem_of_valueOf? hsign) hruns (by simp [hc.1]) fuel p _

/-- The state between two tokens: behind the blanks at the start of a line, or behind a mark. -/
def settled (S : Scan) : Option Scan :=
  match S.mode with
  | .start n => S.startLine n
  | .mark d => (valueOf? d singles).map fun sign => S.push (.sign sign)
  | _ => some S

/-- No mark goes on with quotes and with starts of words. -/
theorem runsOn_eq_false {d : Char} {sign : Sign} (hsign : valueOf? d singles = some sign)
    (hc : (isStart c || isQuote c) = true) : runsOn d c = false := by
  have hlt : c.toNat < 128 := by
    rcases Bool.or_eq_true_iff.mp hc with h | h
    · exact toNat_of_isNameChar (isNameChar_of_isStart h)
    · rcases Bool.or_eq_true_iff.mp h with h | h <;> rw [eq_of_beq h] <;> decide
  have hall : ∀ pair ∈ singles, (isStart c || isQuote c) = true → runsOn pair.1 c = false :=
    fun pair hpair =>
    forall_ascii (P := fun c => (isStart c || isQuote c) = true → runsOn pair.1 c = false)
      (by revert pair; decide) hlt
  exact hall _ (mem_of_valueOf? hsign) hc

theorem leads_of_settled {S₁ : Scan} (h : S.settled = some S₁) (hmode : S₁.mode = .inner)
    (hc : (isStart c || isQuote c) = true) (hcs : S₁.Leads T (c :: cs)) : S.Leads T (c :: cs) := by
  have hne {x : Char} (hx : (isStart x || isQuote x) = false) : c ≠ x := by
    rintro rfl
    rw [hc] at hx
    cases hx
  have hreturn : c ≠ '\r' := hne (by decide)
  unfold settled at h
  split at h
  · next n hstart =>
    intro rest hrest
    obtain ⟨hback, hnul⟩ := hcs rest hrest
    refine ⟨?_, hnul⟩
    rw [List.cons_append, unifyBreaks_cons hreturn] at hback ⊢
    rw [Good, hstart]
    refine outside_of_inside h (hback.inside hmode)
      ⟨hne (by decide), hne (by decide), hne (by decide), ?_⟩
      (hne (by decide)) (hne (by decide))
    intro hfeed
    have heq : c = Char.ofNat 12 := by rw [← hfeed, Char.ofNat_toNat]
    exact hne (by decide) heq
  · next d hmark =>
    obtain ⟨sign, hsign, rfl⟩ := Option.map_eq_some_iff.mp h
    exact leads_of_mark hmark hsign (runsOn_eq_false hsign hc) ⟨hne (by decide), hreturn⟩ hcs
  · cases h
    exact hcs

theorem exists_toList_literal (s : String) :
    ∃ q body, (literal s).toList = q :: body ∧ isQuote q = true :=
  ⟨_, _, by rw [literal, String.toList_ofList, literalChars, List.cons_append],
    isQuote_quoteOf s.toList⟩

/-- The digits of a number are the one zero, or do not start with a zero. -/
theorem toDigits_cases (n : Nat) : Nat.toDigits 10 n = ['0'] ∨ ∃ d ds, Nat.toDigits 10 n = d :: ds ∧
    d ≠ '0' := by
  by_cases hzero : n = 0
  · exact .inl (by rw [hzero]; rfl)
  refine .inr ?_
  induction n using Nat.strongRecOn with
  | ind n ih =>
    rcases Nat.lt_or_ge n 10 with hn | hn
    · refine ⟨_, [], Nat.toDigits_of_lt_base hn, ?_⟩
      revert hzero
      exact (by decide : ∀ n : Fin 10, ¬ n.val = 0 → Nat.digitChar n.val ≠ '0') ⟨n, hn⟩
    · obtain ⟨d, ds, heq, hd⟩ := ih (n / 10) (by omega) (by omega)
      exact ⟨d, ds ++ [Nat.digitChar (n % 10)],
        by rw [Nat.toDigits_of_base_le (by decide) hn, heq]; rfl, hd⟩

theorem leads_number (hmode : S.mode = .inner) (n : Nat) :
    S.Leads { S with mode := .behind .number } (Nat.toDigits 10 n) := by
  have hdigits : ∀ c ∈ Nat.toDigits 10 n, c.isDigit = true := fun c hc =>
    Nat.isDigit_of_mem_toDigits (by decide) (by decide) hc
  refine leads_behind hmode
    (fun c hc => isClear_of_isNameChar (by simp [isNameChar, Char.isAlphanum, hdigits c hc]))
    fun behind hends hinside => ?_
  obtain ⟨e, rest, rfl, he, -, hdot⟩ := hends.cons
  have hname : isNameChar e = false := by
    cases hname : isNameChar e with
    | false => rfl
    | true => rw [isNamePart_of_isNameChar hname] at he; cases he
  have hends : endsNumber e = true := by simp [endsNumber, hname, hdot]
  obtain ⟨d, ds, heq, hread⟩ : ∃ d ds, Nat.toDigits 10 n = d :: ds ∧
      Number.read (d :: ds ++ e :: rest) = .ok (e :: rest) := by
    rcases toDigits_cases n with hzero | ⟨d, ds, heq, hd⟩
    · exact ⟨'0', [], hzero, read_zero hends rest⟩
    · exact ⟨d, ds, heq, read_digits (heq ▸ hdigits) hd hends rest⟩
  rw [heq] at hdigits ⊢
  exact hinside.push (by simp only [List.length_append, List.length_cons]; omega) fun fuel p =>
    ⟨fuel + 2, Nat.le_add_right _ _, p, _, rfl, rfl,
      tokens_number (hdigits d List.mem_cons_self) hread (fuel + 2) p,
      fun _ _ _ hts => .number _ _ hts⟩

theorem leads_data (hmode : S.mode = .inner) (h : Writes [] IsDisplay cs) :
    S.Leads { S with mode := .behind .display } cs := by
  refine leads_behind hmode h.clear fun behind hends hinside fuel p hp hfuel => ?_
  rw [List.length_append] at hfuel
  obtain ⟨us, fuel', p', heq, hus, hbrackets, hindents, hfuel'⟩ :=
    h.reads fuel p behind [] p.brackets rfl rfl (fun _ => hends) hfuel
  rw [heq]
  exact Completes.push _ (hinside fuel' p' ⟨hbrackets ▸ hp.brackets, hindents ▸ hp.indents⟩ hfuel')
    fun zs ks hts => .display hus hts

/-! ## Docstrings -/

theorem eq_cons_of_unifyBreaks {X Y : List Char} (h : unifyBreaks X = c :: Y) (hc : c ≠ '\n') :
    ∃ X', X = c :: X' ∧ Y = unifyBreaks X' := by
  fun_cases unifyBreaks X with
  | case1 => cases h
  | case2 cs => simp [unifyBreaks, hc.symm] at h
  | case3 cs hcs =>
    rw [unifyBreaks] at h
    · simp [hc.symm] at h
    · exact hcs
  | case4 d cs hpair hreturn =>
    have hd : d ≠ '\r' := fun heq => hreturn heq
    rw [unifyBreaks_cons hd] at h
    obtain ⟨rfl, rfl⟩ := List.cons.inj h
    exact ⟨cs, rfl, rfl⟩

theorem two_quotes_of_unifyBreaks {X : List Char} (h : ['"', '"'] <+: unifyBreaks X) :
    ['"', '"'] <+: X := by
  obtain ⟨Y, hY⟩ := h
  obtain ⟨X', rfl, hX'⟩ := eq_cons_of_unifyBreaks hY.symm (by decide)
  obtain ⟨X'', rfl, -⟩ := eq_cons_of_unifyBreaks hX'.symm (by decide)
  exact ⟨X'', rfl⟩

/-- A carriage return inside of triple quotes, with a line feed behind it or not. -/
theorem inLong_return {X : List Char} (h : S.InLong '"' (unifyBreaks X)) :
    S.InLong '"' (unifyBreaks ('\r' :: X)) := by
  by_cases hX : ∃ X', X = '\n' :: X'
  · obtain ⟨X', rfl⟩ := hX
    have heq : unifyBreaks ('\r' :: '\n' :: X') = unifyBreaks ('\n' :: X') := by
      rw [unifyBreaks, unifyBreaks_cons (by decide)]
    rwa [heq]
  · have heq : unifyBreaks ('\r' :: X) = '\n' :: unifyBreaks X := by
      rw [unifyBreaks]
      rintro X' rfl
      exact hX ⟨X', rfl⟩
    rw [heq]
    exact h.cons (by decide) rfl

/-- A text in a docstring does not end it. -/
theorem inLong_docChars {u : List Char} (hu : (unifyBreaks u).head? ≠ some '"')
    (h : S.InLong '"' (unifyBreaks u)) (cs : List Char) :
    S.InLong '"' (unifyBreaks (docChars cs ++ u)) := by
  have hu' : u.head? ≠ some '"' := by
    intro hhead
    obtain ⟨rest, rfl⟩ := List.head?_eq_some_iff.mp hhead
    rw [unifyBreaks_cons (by decide)] at hu
    exact hu rfl
  fun_induction writtenUnits cs with
  | case1 => exact h
  | case2 cs ih =>
    rw [docChars_quotes, List.append_assoc, unifyBreaks_append (by decide)]
    exact ih.escape.escape.escape
  | case3 c cs hopen ih =>
    rw [docChars_cons (not_three_quotes hopen)]
    by_cases hslash : c = '\\'
    · rw [if_pos hslash, List.append_assoc, unifyBreaks_append (by decide)]
      exact ih.escape
    · rw [if_neg hslash, List.singleton_append, List.cons_append]
      by_cases hreturn : c = '\r'
      · rw [hreturn]
        exact inLong_return ih
      · rw [unifyBreaks_cons hreturn]
        refine ih.cons hslash (Bool.eq_false_iff.mpr fun hthree => ?_)
        obtain ⟨hc, htwo⟩ := Bool.and_eq_true_iff.mp hthree
        obtain rfl := eq_of_beq hc
        have htwo := two_quotes_of_unifyBreaks (List.isPrefixOf_iff_prefix.mp htwo)
        exact not_three_quotes hopen
          (three_quotes_of (of_quote_docChars hu') (List.cons_prefix_cons.mpr ⟨rfl, htwo⟩))

/-- A docstring has the characters of its text, and backslashes. -/
theorem mem_docChars {cs : List Char} (hc : c ∈ docChars cs) : c ∈ cs ∨ c = '\\' ∨ c = '"' := by
  fun_induction writtenUnits cs with
  | case1 => exact .inl hc
  | case2 cs ih =>
    rw [docChars_quotes, List.mem_append] at hc
    rcases hc with hc | hc
    · simp only [List.mem_cons, List.not_mem_nil, or_false] at hc
      rcases hc with rfl | rfl | rfl | rfl | rfl | rfl <;> exact .inr (by decide)
    · exact (ih hc).imp_left fun h => List.mem_append_right ['"', '"', '"'] h
  | case3 d cs hopen ih =>
    rw [docChars_cons (not_three_quotes hopen)] at hc
    grind

theorem leads_doc (hmode : S.mode = .long '"') {s : String} (hs : NulFree s) :
    S.Leads { S with mode := .text '"' } (doc s).toList := by
  intro rest ⟨hrest, hnul⟩
  rw [doc, String.toList_ofList]
  refine ⟨?_, List.not_mem_append (fun hmem => ?_) hnul⟩
  · rw [Good, hmode]
    intro hq
    obtain ⟨hhead, hlong⟩ := hrest hq
    exact inLong_docChars hhead hlong s.toList
  · rcases mem_docChars hmem with h | h | h
    · exact hs h
    · cases h
    · cases h

end FlowMachine.Module.Scan
