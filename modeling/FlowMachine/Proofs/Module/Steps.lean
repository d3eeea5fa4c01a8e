import FlowMachine.Proofs.Module.Tokens

/-!
# Steps between tokens

What is good behind a character that starts a line, ends one, or stands between two tokens is good
in front of it.
-/
namespace FlowMachine.Module

open Text Scan

variable {S S' : Scan} {p : Place} {n : Nat} {c : Char} {cs rest : List Char} {ts : List Token}

/-! ## Starts of lines -/

theorem lineStart_blanks (hc : c ≠ ' ' ∧ c ≠ '\t' ∧ c ≠ '\\' ∧ c.toNat ≠ 12) (k n : Nat)
    (rest : List Char) :
    lineStart 0 ⟨k, k⟩ 0 (List.replicate n ' ' ++ c :: rest) = ⟨⟨k + n, k + n⟩, 0, c :: rest⟩ := by
  induction n generalizing k with
  | zero =>
    rw [List.replicate_zero, List.nil_append, lineStart]
    · simp [hc.2.2.2]
    all_goals simp [hc.1, hc.2.1, hc.2.2.1]
  | succ n ih =>
    rw [List.replicate_succ, List.cons_append, lineStart, ih, Nat.add_right_comm, Nat.add_assoc]

theorem lineTokens_newline (fuel : Nat) (p : Place) (n : Nat) (rest : List Char) :
    lineTokens (fuel + 1) p (List.replicate n ' ' ++ '\n' :: rest) = lineTokens fuel
      { p with line := p.line + 1 } rest := by
  have hstart : lineStart 0 {} 0 (List.replicate n ' ' ++ '\n' :: rest) = _ :=
    lineStart_blanks (by decide) 0 n rest
  rw [lineTokens, hstart]
  rfl

theorem lineTokens_comment (fuel : Nat) (p : Place) (n : Nat) (rest : List Char) :
    lineTokens (fuel + 1) p (List.replicate n ' ' ++ '#' :: rest) =
      lineTokens fuel { p with line := p.line + 1 } (rest.dropWhile (· != '\n')).tail := by
  have hstart : lineStart 0 {} 0 (List.replicate n ' ' ++ '#' :: rest) = _ :=
    lineStart_blanks (by decide) 0 n rest
  rw [lineTokens, hstart]
  simp only []
  cases rest.dropWhile (· != '\n') <;> rfl

theorem lineTokens_body (hc : c ≠ ' ' ∧ c ≠ '\t' ∧ c ≠ '\\' ∧ c.toNat ≠ 12) (hnewline : c ≠ '\n')
    (hhash : c ≠ '#')
    {ts : List Token} {indents : List Indent} (fuel : Nat) (p : Place) (n : Nat) (rest : List Char)
    (hindent : indentTokens ⟨n, n⟩ p.line p.indents = .ok (ts, indents)) :
    lineTokens (fuel + 1) p (List.replicate n ' ' ++ c :: rest) = ts ++ tokens fuel
      { p with indents } (c :: rest) := by
  have hstart : lineStart 0 {} 0 (List.replicate n ' ' ++ c :: rest) = _ :=
    lineStart_blanks hc 0 n rest
  rw [lineTokens, hstart]
  simp only [Nat.zero_add, Nat.add_zero]
  split
  · next heq => cases heq
  · next heq => cases heq; exact absurd rfl hnewline
  · next heq => cases heq; exact absurd rfl hhash
  · rw [hindent]

/-- Blocks that are closed end with tokens of their own. -/
theorem unindent_eq {indents indents' : List Nat} {slots slots' : List Slot}
    (h : Scan.unindent n indents slots = some (indents', slots')) (line : Nat) :
    indents'.head? = some n ∧ (∃ i ∈ indents.head?, n ≤ i) ∧
      ∃ ts, Module.unindent n line (indents.map fun i => ⟨i, i⟩) =
      (ts, indents'.map fun i => ⟨i, i⟩) ∧
        ∀ us, Nested slots' us → Nested slots (ts ++ us) := by
  fun_induction Scan.unindent n indents slots with
  | case1 i indents s slots heq =>
    cases h
    obtain rfl := eq_of_beq heq
    exact ⟨rfl, ⟨i, rfl, Nat.le_refl i⟩, [], by simp [Module.unindent], fun us hus => hus⟩
  | case2 i indents s slots heq hpop ih =>
    obtain ⟨hless, hclosed⟩ := Bool.and_eq_true_iff.mp hpop
    have hless : n < i := of_decide_eq_true hless
    obtain ⟨hhead, -, ts, hts, hnested⟩ := ih h
    refine ⟨hhead, ⟨i, rfl, Nat.le_of_lt hless⟩, ⟨.dedent, line, 0⟩ :: ts,
      by simp [Module.unindent, hless, hts], ?_⟩
    intro us hus
    have hrest := hnested us hus
    cases slots with
    | nil => cases hrest
    | cons s' slots => exact .dedent hclosed line 0 hrest
  | case3 => cases h
  | case4 => cases h

namespace Scan

/-! ## Starts and ends of lines -/

theorem startLine_eq (h : S.startLine n = some S') (hp : S.Fits p) :
    S'.line = [] ∧ ∃ ts indents, indentTokens ⟨n, n⟩ p.line p.indents = .ok (ts, indents) ∧
      S'.Fits { p with indents } ∧ ∀ us, Nested S'.slots us →
      Accepts S.headed S.slots (ts ++ us) := by
  unfold startLine at h
  split at h
  · next hheaded =>
    split at h
    · next hhead =>
      cases h
      obtain ⟨i, hi, hless⟩ := (Option.any_eq_true _ _).mp hhead
      obtain ⟨rest, hrest⟩ := List.head?_eq_some_iff.mp hi
      refine ⟨rfl, [⟨.indent, p.line, 0⟩], ⟨n, n⟩ :: p.indents, ?_,
        ⟨hp.brackets, by simp [hp.indents]⟩, fun us hus => ?_⟩
      · rw [hp.indents, hrest]
        simp [indentTokens, of_decide_eq_true hless]
      · rw [Accepts, if_pos hheaded]
        exact ⟨p.line, 0, us, rfl, hus⟩
    · cases h
  · next hheaded =>
    obtain ⟨⟨indents', slots'⟩, hunindent, rfl⟩ := Option.map_eq_some_iff.mp h
    obtain ⟨hhead, ⟨i, hi, hle⟩, ts, hts, hnested⟩ := unindent_eq hunindent p.line
    obtain ⟨rest, hrest⟩ := List.head?_eq_some_iff.mp hi
    obtain ⟨rest', hrest'⟩ := List.head?_eq_some_iff.mp hhead
    refine ⟨rfl, ts, indents'.map fun i => ⟨i, i⟩, ?_, ⟨hp.brackets, rfl⟩, fun us hus => ?_⟩
    · rw [hrest, List.map_cons] at hts
      rw [hp.indents, hrest, List.map_cons]
      simp [indentTokens, Nat.not_lt.mpr hle, hts, hrest']
    · rw [Accepts, if_neg hheaded]
      exact hnested us hus

/-- A line that is completed goes on with the blocks. -/
theorem Completes.nested (h : S.Completes ts) (hline : S.line = []) : Nested S.slots ts := by
  obtain ⟨ks, zs, form, s, s', slots, hts, hform, hslots, hafter, haccepts⟩ := h
  rw [hline, List.reverse_nil, List.nil_append] at hform
  rw [hslots]
  cases hopens : form.opens with
  | false =>
    rw [hopens] at haccepts
    exact .line hts hform hafter hopens haccepts
  | true =>
    rw [hopens] at haccepts
    obtain ⟨line, level, zs, rfl, hnested⟩ := haccepts
    exact .block hts hform hafter hopens hnested

/-- A token of a kind in front of what completes the line. -/
theorem Completes.push {k : Kind} (us : List Token) (h : (S.push k).Completes ts)
    (hk : ∀ zs ks, Spells zs ks ts → Spells zs (k :: ks) (us ++ ts)) : S.Completes (us ++ ts) := by
  obtain ⟨ks, zs, form, s, s', slots, hts, hform, hrest⟩ := h
  refine ⟨k :: ks, zs, form, s, s', slots, hk zs ks hts, ?_, hrest⟩
  simpa [Scan.push] using hform

theorem Completes.sign {s : Sign} (h : (S.push (.sign s)).Completes ts) (p : Place) :
    S.Completes (p.token s.lexeme :: ts) :=
  h.push [p.token s.lexeme] fun _ _ hts => .sign s _ _ hts

theorem completes_endLine (h : S.endLine = some S') (haccepts : Accepts S'.headed S'.slots ts)
    (p : Place) :
    S.Completes (p.token .newline :: ts) := by
  obtain ⟨form, hform, h⟩ := Option.bind_eq_some_iff.mp h
  split at h
  · next slot slots hslots =>
    obtain ⟨slot', hafter, h⟩ := Option.bind_eq_some_iff.mp h
    cases h
    exact ⟨[], ts, form, slot, slot', slots, .nil _ _, by simpa using hform, hslots,
      hafter, haccepts⟩
  · cases h

/-! ## Characters between tokens -/

theorem Good.inside (h : S.Good cs) (hmode : S.mode = .inner) : S.Inside cs := by
  simpa [Good, hmode] using h

/-- What the rest of a line is told to be does not depend on the mode. -/
theorem Inside.of_eq {S' : Scan} (h : S'.Inside cs) (hbrackets : S'.brackets = S.brackets)
    (hindents : S'.indents = S.indents)
    (hslots : S'.slots = S.slots) (hline : S'.line = S.line) : S.Inside cs := by
  intro fuel p hp hfuel
  have := h fuel p ⟨hbrackets ▸ hp.brackets, hindents ▸ hp.indents⟩ hfuel
  rwa [Completes, hslots, hline] at this

/-- Characters that are no token of their own are passed over. -/
theorem Inside.of_tokens {behind : List Char} (h : S.Inside behind)
    (hlen : behind.length ≤ cs.length)
    (htokens : ∀ fuel p, ∃ p' : Place, p'.brackets = p.brackets ∧ p'.indents = p.indents ∧
      tokens (fuel + 1) p (c :: cs) = tokens fuel p' behind) : S.Inside (c :: cs) := by
  intro fuel p hp hfuel
  rw [List.length_cons] at hfuel
  obtain ⟨fuel, rfl⟩ : ∃ k, fuel = k + 1 := ⟨fuel - 1, by omega⟩
  obtain ⟨p', hbrackets, hindents, heq⟩ := htokens fuel p
  rw [heq]
  exact h fuel p' ⟨hbrackets ▸ hp.brackets, hindents ▸ hp.indents⟩ (by omega)

/-- A word as far as it was read may be gone on with. -/
theorem Good.of_wordMode {w : List Char} (h : { S with mode := wordMode w }.Good cs)
    (hw : IsWord w) :
    S.Inside (w ++ cs) := by
  unfold wordMode at h
  split at h
  · exact (h hw).of_eq rfl rfl rfl rfl
  · next hopen => exact (h w hw (by simpa using hopen)).of_eq rfl rfl rfl rfl

theorem inside_of_endLine (h : S.endLine = some S') (hbrackets : S.brackets = [])
    (hgood : S'.Good cs) :
    S.Inside ('\n' :: cs) := by
  intro fuel p hp hfuel
  obtain ⟨fuel, rfl⟩ : ∃ k, fuel = k + 1 := ⟨fuel - 1, by simp at hfuel; omega⟩
  have hempty : p.brackets.isEmpty = true := by
    have := hp.brackets
    rw [hbrackets] at this
    simpa using this
  have hmode : S'.mode = .start 0 ∧ S'.brackets = S.brackets ∧ S'.indents = S.indents := by
    obtain ⟨form, -, h⟩ := Option.bind_eq_some_iff.mp h
    split at h
    · obtain ⟨_, -, h⟩ := Option.bind_eq_some_iff.mp h
      cases h
      exact ⟨rfl, rfl, rfl⟩
    · cases h
  obtain ⟨hmode, hbrackets', hindents'⟩ := hmode
  have houtside : S'.Outside cs := by simpa [Good, hmode] using hgood
  rw [tokens_newline, if_pos hempty]
  refine completes_endLine h (houtside fuel _ ⟨?_, ?_⟩ ?_) p
  · rw [hbrackets']; exact hp.brackets
  · rw [hindents']; exact hp.indents
  · simp at hfuel
    omega

/-- A line break inside of brackets ends no line. -/
theorem inside_of_newline (hopen : S.brackets ≠ []) (hinside : S.Inside cs) :
    S.Inside ('\n' :: cs) := by
  intro fuel p hp hfuel
  rw [List.length_cons] at hfuel
  obtain ⟨fuel, rfl⟩ : ∃ k, fuel = k + 1 := ⟨fuel - 1, by omega⟩
  have hbrackets : p.brackets.isEmpty = false := by
    cases hempty : p.brackets.isEmpty with
    | false => rfl
    | true =>
      have heq := hp.brackets
      rw [List.isEmpty_iff.mp hempty] at heq
      exact absurd (List.map_eq_nil_iff.mp heq.symm) hopen
  rw [tokens_newline, hbrackets]
  exact hinside fuel _ ⟨hp.brackets, hp.indents⟩ (by omega)

theorem inside_of_opener {s : Sign} (hs : (c, s) ∈ openers)
    (hinside : { S.push (.sign s) with brackets := s :: S.brackets }.Inside cs) :
    S.Inside (c :: cs) := by
  intro fuel p hp hfuel
  rw [List.length_cons] at hfuel
  obtain ⟨fuel, rfl⟩ : ∃ k, fuel = k + 1 := ⟨fuel - 1, by omega⟩
  have hchar : ∀ pair ∈ openers, bracketChar pair.2 = pair.1 := by decide
  rw [tokens_opener hs]
  refine Completes.sign
    (hinside fuel { p with brackets := (c, p.line) :: p.brackets } ⟨?_, hp.indents⟩ (by omega)) _
  simp [hp.brackets, hchar (c, s) hs]

theorem inside_of_closer {s opener : Sign} {brackets : List Sign} (hs : (c, s, opener) ∈ closers)
    (hopener : S.brackets = opener :: brackets)
    (hinside : { S.push (.sign s) with brackets }.Inside cs) : S.Inside (c :: cs) := by
  intro fuel p hp hfuel
  rw [List.length_cons] at hfuel
  obtain ⟨fuel, rfl⟩ : ∃ k, fuel = k + 1 := ⟨fuel - 1, by omega⟩
  have hbrackets := hp.brackets
  rw [hopener, List.map_cons] at hbrackets
  obtain ⟨⟨char, line⟩, outer, hp', rfl, houter⟩ := List.map_eq_cons_iff.mp hbrackets
  rw [tokens_closer hs hp']
  exact Completes.sign
    (hinside fuel { p with brackets := outer } ⟨houter, hp.indents⟩ (by omega)) _

theorem inside_of_innerStep (h : S.innerStep c = some S') (hgood : S'.Good cs) :
    S.Inside (c :: cs) := by
  simp only [innerStep, same_eq] at h
  by_cases hblank : (c == ' ') = true
  · rw [if_pos hblank] at h
    cases h
    obtain rfl := eq_of_beq hblank
    have hinside : S.Inside cs := (hgood.inside rfl).of_eq rfl rfl rfl rfl
    refine hinside.of_tokens (Nat.le_refl _) fun fuel p => ⟨p, rfl, rfl, ?_⟩
    rw [tokens_cons (by decide) (by decide)]
    rfl
  rw [if_neg hblank] at h
  by_cases hnewline : (c == '\n') = true
  · rw [if_pos hnewline] at h
    obtain rfl := eq_of_beq hnewline
    split at h
    · next hempty => exact inside_of_endLine h (List.isEmpty_iff.mp hempty) hgood
    · next hopen =>
      cases h
      exact inside_of_newline (by simpa using hopen) ((hgood.inside rfl).of_eq rfl rfl rfl rfl)
  rw [if_neg hnewline] at h
  by_cases hhash : (c == '#') = true
  · rw [if_pos hhash] at h
    cases h
    obtain rfl := eq_of_beq hhash
    have hinside : S.Inside (cs.dropWhile (· != '\n')) := Inside.of_eq hgood rfl rfl rfl rfl
    refine hinside.of_tokens (List.dropWhile_sublist _).length_le fun fuel p => ⟨p, rfl, rfl, ?_⟩
    rw [tokens_cons (by decide) (by decide)]
    rfl
  rw [if_neg hhash] at h
  by_cases hquote : isQuote c = true
  · rw [if_pos hquote] at h
    cases h
    exact Inside.of_eq (hgood hquote [] (by simp)) rfl rfl rfl rfl
  rw [if_neg hquote] at h
  by_cases hzero : (c == '0') = true
  · rw [if_pos hzero] at h
    cases h
    obtain rfl := eq_of_beq hzero
    exact Inside.of_eq hgood rfl rfl rfl rfl
  rw [if_neg hzero] at h
  by_cases hdigit : c.isDigit = true
  · rw [if_pos hdigit] at h
    cases h
    exact Inside.of_eq (hgood c [] (by simpa using hdigit) (by simpa using hzero)) rfl rfl rfl rfl
  rw [if_neg hdigit] at h
  by_cases hstart : (c.isAlpha || c == '_') = true
  · rw [if_pos hstart] at h
    cases h
    have hword : IsWord [c] := ⟨⟨c, [], rfl, hstart⟩, by simpa using isNameChar_of_isStart hstart⟩
    exact (hgood.of_wordMode hword).of_eq rfl rfl rfl rfl
  rw [if_neg hstart] at h
  split at h
  · next s hs =>
    cases h
    exact inside_of_opener (mem_of_valueOf? hs) (hgood.inside rfl)
  · split at h
    · next s opener hs =>
      split at h
      · next b brackets hb =>
        split at h
        · next heq =>
          cases h
          exact inside_of_closer (mem_of_valueOf? hs) (hb.trans (by rw [eq_of_beq heq]))
            (hgood.inside rfl)
        · cases h
      · cases h
    · split at h
      · cases h
        exact Inside.of_eq hgood rfl rfl rfl rfl
      · cases h

/-! ## Texts -/

theorem skipShort_cons {q : Char} (hc : c ≠ q) (hnewline : c ≠ '\n') (hslash : c ≠ '\\') (b : Nat) :
    skipShort q b (c :: cs) = skipShort q b cs := by
  rw [skipShort]
  · simp [hc, hnewline]
  all_goals simp [hslash]

theorem skipShort_escape {q : Char} (hc : c ≠ '\n') (b : Nat) :
    skipShort q b ('\\' :: c :: cs) = skipShort q b cs := by
  rw [skipShort]
  · simp [hc]
  · simp [hc]

theorem skipShort_quote {q : Char} (hq : isQuote q = true) (b : Nat) :
    skipShort q b (q :: cs) = (some cs, b) := by
  have hslash : q ≠ '\\' := by rintro rfl; cases hq
  rw [skipShort]
  · simp
  all_goals simp [hslash]

theorem skipLong_cons {q : Char} (hslash : c ≠ '\\')
    (hc : (c == q && [q, q].isPrefixOf cs) = false) (b : Nat) :
    skipLong q b (c :: cs) = skipLong q (if c == '\n' then b + 1 else b) cs := by
  rw [skipLong, hc]
  · rfl
  · simp [hslash]

theorem InShort.cons {q : Char} (h : S.InShort q cs) (hc : c ≠ q) (hnewline : c ≠ '\n')
    (hslash : c ≠ '\\') :
    S.InShort q (c :: cs) := by
  obtain ⟨behind, n, hskip, hlen, hinside⟩ := h
  exact ⟨behind, n, fun b => (skipShort_cons hc hnewline hslash b).trans (hskip b),
    Nat.le_succ_of_le hlen, hinside⟩

theorem InShort.escape {q : Char} (h : S.InShort q cs) (hc : c ≠ '\n') :
    S.InShort q ('\\' :: c :: cs) := by
  obtain ⟨behind, n, hskip, hlen, hinside⟩ := h
  exact ⟨behind, n, fun b => (skipShort_escape hc b).trans (hskip b),
    Nat.le_succ_of_le (Nat.le_succ_of_le hlen), hinside⟩

theorem inShort_quote {q : Char} (hq : isQuote q = true) (h : (S.push .string).Inside cs) :
    S.InShort q (q :: cs) :=
  ⟨cs, 0, fun b => skipShort_quote hq b, Nat.le_succ _, h⟩

theorem InLong.cons {q : Char} (h : S.InLong q cs) (hslash : c ≠ '\\')
    (hc : (c == q && [q, q].isPrefixOf cs) = false) :
    S.InLong q (c :: cs) := by
  obtain ⟨behind, n, hskip, hlen, hinside⟩ := h
  refine ⟨behind, (if c == '\n' then 1 else 0) + n, fun b => ?_, Nat.le_succ_of_le hlen, hinside⟩
  rw [skipLong_cons hslash hc, hskip]
  split <;> grind

theorem InLong.escape {q : Char} (h : S.InLong q cs) : S.InLong q ('\\' :: c :: cs) := by
  obtain ⟨behind, n, hskip, hlen, hinside⟩ := h
  refine ⟨behind, (if c == '\n' then 1 else 0) + n, fun b => ?_,
    Nat.le_succ_of_le (Nat.le_succ_of_le hlen), hinside⟩
  rw [skipLong, hskip]
  split <;> grind

theorem inLong_quotes {q : Char} (hq : isQuote q = true) (h : (S.push .string).Inside cs) :
    S.InLong q (q :: q :: q :: cs) := by
  have hslash : q ≠ '\\' := by rintro rfl; cases hq
  refine ⟨cs, 0, fun b => ?_, by simp; omega, h⟩
  rw [skipLong]
  · simp [List.isPrefixOf]
  · simp [hslash]

/-- A token of a kind is passed over. -/
theorem Inside.push {k : Kind} {behind : List Char} (h : (S.push k).Inside behind)
    (hlen : behind.length < cs.length)
    (htokens : ∀ fuel p, ∃ fuel' ≥ fuel, ∃ p' : Place, ∃ lexeme,
    p'.brackets = p.brackets ∧ p'.indents = p.indents ∧
      tokens (fuel + 3) p cs = p.token lexeme :: tokens fuel' p' behind ∧
      ∀ zs ks ts, Spells zs ks ts → Spells zs (k :: ks) (p.token lexeme :: ts)) : S.Inside cs := by
  intro fuel p hp hfuel
  obtain ⟨fuel, rfl⟩ : ∃ j, fuel = j + 3 := ⟨fuel - 3, by omega⟩
  obtain ⟨fuel', hfuel', p', lexeme, hbrackets, hindents, heq, hspells⟩ := htokens fuel p
  rw [heq]
  exact Completes.push [p.token lexeme]
    (h fuel' p' ⟨hbrackets ▸ hp.brackets, hindents ▸ hp.indents⟩ (by omega)) fun zs ks hts =>
      hspells zs ks _ hts

theorem spells_string {w : List Char} (hw : w ∈ [[], ['f'], ['r']]) (p : Place) (zs : List Token)
    (ks : List Kind)
    (ts : List Token) (hts : Spells zs ks ts) :
    Spells zs (.string :: ks)
      (p.token (.string (w.any (·.toLower == 'b')) (w.any (·.toLower == 'f'))) :: ts) := by
  have hbytes : ∀ w ∈ [[], ['f'], ['r']], w.any (fun c => c.toLower == 'b') = false := by decide
  rw [hbytes w hw]
  exact .string _ _ _ hts

/-- A text in one line. -/
theorem InShort.inside {q : Char} (h : S.InShort q cs) (hq : isQuote q = true)
    (hcs : [q, q].isPrefixOf cs = false)
    {w : List Char} (hw : w ∈ [[], ['f'], ['r']]) : S.Inside (w ++ q :: cs) := by
  obtain ⟨behind, n, hskip, hlen, hinside⟩ := h
  refine hinside.push (by simp; omega) fun fuel p => ?_
  obtain ⟨k, hk, heq⟩ := tokens_marked (w := w) (by simpa using hw) hq (fuel + 1) p cs
  obtain ⟨k, rfl⟩ : ∃ j, k = j + 1 := ⟨k - 1, by omega⟩
  rw [quoted_eq (readString_short hcs (hskip 0) p.line) k rfl w] at heq
  exact ⟨k, by omega, { p with line := p.line + n }, _, rfl, rfl, by simpa using heq,
    spells_string hw p⟩

/-- A text between triple quotes. -/
theorem InLong.inside {q : Char} (h : S.InLong q cs) (hq : isQuote q = true) {w : List Char}
    (hw : w ∈ [[], ['f'], ['r']]) :
    S.Inside (w ++ q :: q :: q :: cs) := by
  obtain ⟨behind, n, hskip, hlen, hinside⟩ := h
  refine hinside.push (by simp; omega) fun fuel p => ?_
  obtain ⟨k, hk, heq⟩ := tokens_marked (w := w) (by simpa using hw) hq (fuel + 1) p (q :: q :: cs)
  obtain ⟨k, rfl⟩ : ∃ j, k = j + 1 := ⟨k - 1, by omega⟩
  rw [quoted_eq (readString_long (hskip 0) p.line) k rfl w] at heq
  exact ⟨k, by omega, { p with line := p.line + n }, _, rfl, rfl, by simpa using heq,
    spells_string hw p⟩

end Scan

end FlowMachine.Module
