import FlowMachine.Proofs.Module.Steps

/-!
# Steps of all modes

Whatever the state is in the middle of, what is good behind a character is good in front of it.
-/
namespace FlowMachine.Module.Scan

open Text

variable {S S' : Scan} {p : Place} {n : Nat} {c d : Char} {cs rest w : List Char} {ts : List Token}

/-- A character between tokens is an ASCII character, and no blank but the space. -/
theorem facts_of_innerStep (h : S.innerStep c = some S') :
    c.toNat < 128 ∧ c ≠ '\t' ∧ c ≠ '\\' ∧ c.toNat ≠ 12 := by
  have hlookup {x : Char} (hx : x ≠ ' ' ∧ x ≠ '\n' ∧ x ≠ '#' ∧ isQuote x = false ∧ x ≠ '0' ∧
      x.isDigit = false ∧
      isStart x = false ∧ valueOf? x openers = none ∧ valueOf? x closers = none ∧ x ≠ '!' ∧
      valueOf? x singles = none) :
      S.innerStep x = none := by
    obtain ⟨h1, h2, h3, h4, h5, h6, h7, h8, h9, h10, h11⟩ := hx
    have h7 : (x.isAlpha || x == '_') = false := h7
    simp [innerStep, h1, h2, h3, h4, h5, h6, h7, h8, h9, h10, h11, -Bool.or_eq_true]
  have hne {x : Char} (hx : S.innerStep x = none) : c ≠ x := by
    rintro rfl
    rw [h] at hx
    cases hx
  refine ⟨Nat.lt_of_not_le fun hge => hne (hlookup ?_) rfl, hne (hlookup (by decide)),
    hne (hlookup (by decide)), fun heq => ?_⟩
  · have hother {x : Char} (hx : x.toNat < 128) : c ≠ x := by
      rintro rfl
      omega
    have hword : isNameChar c = false := by
      cases hname : isNameChar c with
      | false => rfl
      | true => exact absurd (toNat_of_isNameChar hname) (by omega)
    have hstart : isStart c = false := by
      cases hstart : isStart c with
      | false => rfl
      | true => rw [isNameChar_of_isStart hstart] at hword; cases hword
    have hdigit : c.isDigit = false := by
      simp only [isNameChar, Char.isAlphanum, Bool.or_eq_false_iff] at hword
      exact hword.1.2
    have hquote : isQuote c = false := by
      simp [isQuote, hother (x := '"') (by decide), hother (x := '\'') (by decide)]
    have hnone {β : Type} {pairs : List (Char × β)} (hpairs : ∀ pair ∈ pairs, pair.1.toNat < 128) :
        valueOf? c pairs = none := by
      refine Option.map_eq_none_iff.mpr (List.find?_eq_none.mpr fun pair hpair => ?_)
      simpa using hother (hpairs pair hpair)
    exact ⟨hother (by decide), hother (by decide), hother (by decide), hquote, hother (by decide),
      hdigit, hstart, hnone (by decide), hnone (by decide), hother (by decide), hnone (by decide)⟩
  · have hff : c = Char.ofNat 12 := by rw [← heq, Char.ofNat_toNat]
    exact hne (hlookup (by decide)) hff

/-! ## Tokens that a character ends -/

theorem isNamePart_of_innerStep (h : S.innerStep c = some S') (hname : isNameChar c = false) :
    isNamePart c = false := by
  have hlt := (facts_of_innerStep h).1
  show (isNameChar c || decide (0x80 ≤ c.toNat)) = false
  rw [hname]
  simpa using hlt

theorem mem_reserved {entry : List Char × Option Sign} (h : entry ∈ reservedBehind c) :
    (c, reservedBehind c) ∈ reserved := by
  unfold reservedBehind at h ⊢
  cases hvalue : valueOf? c reserved with
  | none => simp [hvalue] at h
  | some entries => exact mem_of_valueOf? hvalue

/-- Words that are looked for, if they are no marks, are reserved ones. -/
theorem exists_reserved {word : String}
    (hword : word ∈ keywords ∨ word ∈ absentWords ∨ word ∈ Sign.all.map Sign.text)
    {c : Char} {cs : List Char} (heq : word.toList = c :: cs) (hc : isStart c = true) :
    ∃ entry ∈ reservedBehind c, entry.1 = cs := by
  have hall : ∀ word ∈ keywords ++ absentWords ++ Sign.all.map Sign.text,
      word.toList.head?.all (fun c =>
      !isStart c || (reservedBehind c).any (·.1 == word.toList.tail)) = true := by decide +kernel
  have hfound := hall word (by simpa [or_assoc] using hword)
  simpa [heq, hc] using hfound

/-- The kind of a word is that of its token. -/
theorem spells_wordKind {k : Kind} (h : wordKind? w = some k) (hw : IsWord w) (p : Place)
    (zs : List Token)
    (ks : List Kind) (ts : List Token) (hts : Spells zs ks ts) :
    Spells zs (k :: ks) (p.token (.name (String.ofList w)) :: ts) := by
  obtain ⟨c, cs, rfl, hc⟩ := hw.start
  simp only [wordKind?] at h
  split at h
  · next entry hentry =>
    obtain ⟨s, hs, rfl⟩ := Option.map_eq_some_iff.mp h
    have hcs : entry.1 = cs := by simpa using List.find?_some hentry
    have hmem : (c, reservedBehind c) ∈ reserved :=
      mem_reserved (List.mem_of_find?_eq_some hentry)
    have hall : ∀ pair ∈ reserved, ∀ entry ∈ pair.2, ∀ s ∈ entry.2,
        s.lexeme = .name (String.ofList (pair.1 :: entry.1)) := by
      decide
    rw [← hcs, ← hall _ hmem entry (List.mem_of_find?_eq_some hentry) s (by simp [hs])]
    exact .sign s _ _ hts
  · next hnone =>
    cases h
    have hother {word : String} (hword : word ∈ keywords ∨ word ∈ absentWords ∨
      word ∈ Sign.all.map Sign.text) :
        String.ofList (c :: cs) ≠ word := by
      rintro rfl
      obtain ⟨entry, hentry, heq⟩ := exists_reserved hword (String.toList_ofList) hc
      have := List.find?_eq_none.mp hnone entry hentry
      simp [heq] at this
    exact .name _ _ _ ⟨fun h => hother (.inl h) rfl, fun h => hother (.inr (.inl h)) rfl,
      fun h => hother (.inr (.inr h)) rfl⟩ hts

/-- A word that no reserved word starts with is a name. -/
theorem spells_open (h : isOpen w = false) (hw : IsWord w) (p : Place) (zs : List Token)
    (ks : List Kind)
    (ts : List Token) (hts : Spells zs ks ts) :
    Spells zs (.name :: ks) (p.token (.name (String.ofList w)) :: ts) := by
  obtain ⟨c, cs, rfl, hc⟩ := hw.start
  have hother {word : String} (hword : word ∈ keywords ∨ word ∈ absentWords ∨
    word ∈ Sign.all.map Sign.text) :
      String.ofList (c :: cs) ≠ word := by
    rintro rfl
    obtain ⟨entry, hentry, heq⟩ := exists_reserved hword (String.toList_ofList) hc
    have := List.any_eq_false.mp h entry hentry
    simp [heq] at this
  exact .name _ _ _ ⟨fun h => hother (.inl h) rfl, fun h => hother (.inr (.inl h)) rfl,
    fun h => hother (.inr (.inr h)) rfl⟩ hts

/-! ## Starts of lines -/

/-- What the rest of a module is told to be does not depend on the mode. -/
theorem Outside.of_eq {S' : Scan} (h : S'.Outside cs) (hbrackets : S'.brackets = S.brackets)
    (hindents : S'.indents = S.indents) (hslots : S'.slots = S.slots)
    (hheaded : S'.headed = S.headed) : S.Outside cs := by
  intro fuel p hp hfuel
  have := h fuel p ⟨hbrackets ▸ hp.brackets, hindents ▸ hp.indents⟩ hfuel
  rwa [hslots, hheaded] at this

/-- Lines without tokens are passed over. -/
theorem Outside.of_lineTokens {behind : List Char} (h : S.Outside behind)
    (hlen : behind.length < cs.length)
    (htokens : ∀ fuel (p : Place),
      lineTokens (fuel + 1) p cs = lineTokens fuel { p with line := p.line + 1 } behind) :
      S.Outside cs := by
  intro fuel p hp hfuel
  obtain ⟨fuel, rfl⟩ : ∃ k, fuel = k + 1 := ⟨fuel - 1, by omega⟩
  rw [htokens]
  exact h fuel _ ⟨hp.brackets, hp.indents⟩ (by omega)

theorem outside_of_inside {S₁ : Scan} (hstart : S.startLine n = some S₁)
    (hinside : S₁.Inside (c :: cs))
    (hblank : c ≠ ' ' ∧ c ≠ '\t' ∧ c ≠ '\\' ∧ c.toNat ≠ 12) (hnewline : c ≠ '\n')
    (hhash : c ≠ '#') :
    S.Outside (List.replicate n ' ' ++ c :: cs) := by
  intro fuel p hp hfuel
  obtain ⟨fuel, rfl⟩ : ∃ k, fuel = k + 1 := ⟨fuel - 1, by omega⟩
  obtain ⟨hline, ts, indents, hindent, hfits, haccepts⟩ := startLine_eq hstart hp
  rw [lineTokens_body hblank hnewline hhash fuel p n cs hindent]
  refine haccepts _ (Completes.nested (hinside fuel _ hfits ?_) hline)
  simp at hfuel ⊢
  omega

theorem good_of_step_start (h : ({ S with mode := .start n } : Scan).step c = some S')
    (hgood : S'.Good cs) :
    S.Outside (List.replicate n ' ' ++ c :: cs) := by
  simp only [step, same_eq] at h
  split at h
  · next hblank =>
    cases h
    obtain rfl := eq_of_beq hblank
    have houtside : S.Outside (List.replicate (n + 1) ' ' ++ cs) :=
      Outside.of_eq hgood rfl rfl rfl rfl
    rwa [List.replicate_succ', List.append_assoc] at houtside
  · next hblank =>
    split at h
    · next hnewline =>
      cases h
      obtain rfl := eq_of_beq hnewline
      have houtside : S.Outside cs := Outside.of_eq hgood rfl rfl rfl rfl
      exact houtside.of_lineTokens (by simp; omega) fun fuel p => lineTokens_newline fuel p n cs
    · next hnewline =>
      split at h
      · next hhash =>
        cases h
        obtain rfl := eq_of_beq hhash
        have houtside : S.Outside (cs.dropWhile (· != '\n')).tail :=
          Outside.of_eq hgood rfl rfl rfl rfl
        refine houtside.of_lineTokens ?_ fun fuel p => lineTokens_comment fuel p n cs
        have := (List.dropWhile_sublist (l := cs) (· != '\n')).length_le
        simp
        omega
      · next hhash =>
        obtain ⟨S₁, hstart, hinner⟩ := Option.bind_eq_some_iff.mp h
        obtain ⟨-, htab, hslash, hfeed⟩ := facts_of_innerStep hinner
        have houtside := outside_of_inside hstart (inside_of_innerStep hinner hgood)
          ⟨by simpa using hblank, htab, hslash, hfeed⟩ (by simpa using hnewline)
            (by simpa using hhash)
        exact houtside.of_eq rfl rfl rfl rfl

/-! ## Tokens that the next character ends -/

/-- A word in front of a character that no name goes on with. -/
theorem inside_of_word {k : Kind} (hw : IsWord w) (hname : isNameChar c = false)
    (hquote : isQuote c = false)
    (h : (S.push k).innerStep c = some S') (hgood : S'.Good cs)
    (hk : ∀ (p : Place) zs ks ts, Spells zs ks ts →
    Spells zs (k :: ks) (p.token (.name (String.ofList w)) :: ts)) :
    S.Inside (w ++ c :: cs) := by
  refine (inside_of_innerStep h hgood).push ?_ fun fuel p => ⟨fuel, Nat.le_refl _, p, _, rfl, rfl,
    tokens_name hw (isNamePart_of_innerStep h hname) hquote fuel p cs, hk p⟩
  obtain ⟨x, xs, rfl, -⟩ := hw.start
  simp only [List.length_append, List.length_cons]
  omega

theorem inside_of_number (ds : List Char) (hd : d.isDigit = true)
    (hread : Number.read (d :: ds ++ c :: cs) = .ok (c :: cs))
    (h : (S.push .number).innerStep c = some S') (hgood : S'.Good cs) :
    S.Inside (d :: ds ++ c :: cs) :=
  (inside_of_innerStep h hgood).push (by simp only [List.length_append, List.length_cons]; omega)
    fun fuel p => ⟨fuel + 2, Nat.le_add_right _ _, p, _, rfl, rfl,
      tokens_number hd hread (fuel + 2) p, fun _ _ _ hts => .number _ _ hts⟩

/-- A mark is passed over. -/
theorem Inside.mark {s : Sign} {behind : List Char} (h : (S.push (.sign s)).Inside behind)
    (hlen : behind.length < cs.length)
    (htokens : ∀ fuel p, tokens (fuel + 1) p cs = p.token s.lexeme :: tokens fuel p behind) :
    S.Inside cs :=
  h.push hlen fun fuel p => ⟨fuel + 2, Nat.le_add_right _ _, p, _, rfl, rfl, htokens (fuel + 2) p,
    fun _ _ _ hts => .sign s _ _ hts⟩

theorem IsWord.append (hw : IsWord w) (hc : isNameChar c = true) : IsWord (w ++ [c]) := by
  obtain ⟨x, xs, rfl, hx⟩ := hw.start
  refine ⟨⟨x, xs ++ [c], rfl, hx⟩, fun y hy => ?_⟩
  rcases List.mem_append.mp hy with hy | hy
  · exact hw.chars y hy
  · rwa [List.mem_singleton.mp hy]

theorem good_of_step_word (h : ({ S with mode := .word w } : Scan).step c = some S')
    (hgood : S'.Good cs) (hw : IsWord w) :
    S.Inside (w ++ c :: cs) := by
  simp only [step] at h
  split at h
  · next hname =>
    cases h
    have hword : IsWord (w ++ [c]) := hw.append hname
    have hinside : S.Inside (w ++ [c] ++ cs) := (hgood.of_wordMode hword).of_eq rfl rfl rfl rfl
    rwa [List.append_assoc] at hinside
  · next hname =>
    split at h
    · next hquote =>
      split at h
      · next hmark =>
        cases h
        have hmark : w = ['f'] ∨ w = ['r'] := by simpa using hmark
        exact Inside.of_eq (hgood hquote w (by simp [hmark])) rfl rfl rfl rfl
      · cases h
    · next hquote =>
      obtain ⟨k, hk, hinner⟩ := Option.bind_eq_some_iff.mp h
      have hinside := inside_of_word hw (by simpa using hname) (by simpa using hquote) hinner hgood
        fun p zs ks ts hts => spells_wordKind hk hw p zs ks ts hts
      exact hinside.of_eq rfl rfl rfl rfl

theorem good_of_step_name (h : ({ S with mode := .name } : Scan).step c = some S')
    (hgood : S'.Good cs) (hw : IsWord w)
    (hopen : isOpen w = false) : S.Inside (w ++ c :: cs) := by
  simp only [step] at h
  split at h
  · next hname =>
    cases h
    have hword : IsWord (w ++ [c]) := hw.append hname
    have hopen' : isOpen (w ++ [c]) = false := by
      obtain ⟨x, xs, rfl, -⟩ := hw.start
      refine List.any_eq_false.mpr fun entry hentry hprefix =>
        List.any_eq_false.mp hopen entry hentry ?_
      exact List.isPrefixOf_iff_prefix.mpr
        ((List.prefix_append xs [c]).trans (List.isPrefixOf_iff_prefix.mp hprefix))
    have hinside : S.Inside (w ++ [c] ++ cs) := (hgood _ hword hopen').of_eq rfl rfl rfl rfl
    rwa [List.append_assoc] at hinside
  · next hname =>
    split at h
    · cases h
    · next hquote =>
      have hinside := inside_of_word hw (by simpa using hname) (by simpa using hquote) h hgood
        fun p zs ks ts hts => spells_open hopen hw p zs ks ts hts
      exact hinside.of_eq rfl rfl rfl rfl

theorem good_of_step_number (h : ({ S with mode := .number } : Scan).step c = some S')
    (hgood : S'.Good cs) (hds : ∀ x ∈ d :: ds, x.isDigit = true) (hd : d ≠ '0') :
    S.Inside (d :: ds ++ c :: cs) := by
  simp only [step, same_eq] at h
  split at h
  · next hdigit =>
    cases h
    have hall : ∀ x ∈ d :: ds ++ [c], x.isDigit = true :=
      List.forall_mem_append.mpr ⟨hds, List.forall_mem_singleton.mpr hdigit⟩
    have hinside : S.Inside (d :: ds ++ [c] ++ cs) := (hgood d _ hall hd).of_eq rfl rfl rfl rfl
    rwa [List.append_assoc] at hinside
  · split at h
    · cases h
    · next hends =>
      have hends : endsNumber c = true := by simpa [endsNumber] using hends
      exact (inside_of_number _ (hds d List.mem_cons_self) (read_digits hds hd hends cs) h
        hgood).of_eq rfl rfl rfl rfl

theorem good_of_step_mark (h : ({ S with mode := .mark d } : Scan).step c = some S')
    (hgood : S'.Good cs) :
    S.Inside (d :: c :: cs) := by
  simp only [step, same_eq] at h
  split at h
  · next hstars =>
    cases h
    obtain ⟨hd, hc⟩ := Bool.and_eq_true_iff.mp hstars
    obtain rfl := eq_of_beq hd
    obtain rfl := eq_of_beq hc
    exact Inside.of_eq hgood rfl rfl rfl rfl
  · next hstars =>
    split at h
    · next s hs =>
      cases h
      have hinside : (S.push (.sign s)).Inside cs := (hgood.inside rfl).of_eq rfl rfl rfl rfl
      exact hinside.mark (by simp only [List.length_cons]; omega) fun fuel p =>
        tokens_double (mem_of_double? hs) fuel p cs
    · split at h
      · cases h
      · next hruns =>
        obtain ⟨s, hs, hinner⟩ := Option.bind_eq_some_iff.mp h
        have hinside : (S.push (.sign s)).Inside (c :: cs) :=
          (inside_of_innerStep hinner hgood).of_eq rfl rfl rfl rfl
        refine hinside.mark (by simp) fun fuel p => ?_
        refine tokens_single (mem_of_valueOf? hs) (by simpa using hruns) ?_ fuel p cs
        rw [Bool.and_comm]
        simpa using hstars

/-! ## Texts and comments -/

theorem good_of_step_quoted {q : Char} (h : ({ S with mode := .quoted q } : Scan).step c = some S')
    (hgood : S'.Good cs)
    (hq : isQuote q = true) (hw : w ∈ [[], ['f'], ['r']]) : S.Inside (w ++ q :: c :: cs) := by
  simp only [step, same_eq] at h
  by_cases hc : c = q
  · subst hc
    rw [if_pos (by simp)] at h
    cases h
    exact (hgood hq w hw).of_eq rfl rfl rfl rfl
  · rw [if_neg (by simpa using hc)] at h
    have hprefix : [q, q].isPrefixOf (c :: cs) = false := by simp [List.isPrefixOf, Ne.symm hc]
    split at h
    · next hslash =>
      cases h
      obtain rfl := eq_of_beq hslash
      have hshort : S.InShort q ('\\' :: cs) := hgood hq
      exact hshort.inside hq hprefix hw
    · next hslash =>
      split at h
      · cases h
      · next hnewline =>
        cases h
        have hshort : S.InShort q cs := hgood hq
        exact (hshort.cons hc (by simpa using hnewline) (by simpa using hslash)).inside
          hq hprefix hw

theorem good_of_step_empty {q : Char} (h : ({ S with mode := .empty q } : Scan).step c = some S')
    (hgood : S'.Good cs)
    (hq : isQuote q = true) (hw : w ∈ [[], ['f'], ['r']]) : S.Inside (w ++ q :: q :: c :: cs) := by
  simp only [step, same_eq] at h
  by_cases hc : c = q
  · subst hc
    rw [if_pos (by simp)] at h
    cases h
    have hlong : S.InLong c cs := hgood hq
    exact hlong.inside hq hw
  · rw [if_neg (by simpa using hc)] at h
    have hinside : (S.push .string).Inside (c :: cs) :=
      (inside_of_innerStep h hgood).of_eq rfl rfl rfl rfl
    exact (inShort_quote hq hinside).inside hq (by simp [List.isPrefixOf, Ne.symm hc]) hw

theorem good_of_step_short {q : Char} (h : ({ S with mode := .short q } : Scan).step c = some S')
    (hgood : S'.Good cs)
    (hq : isQuote q = true) : S.InShort q (c :: cs) := by
  simp only [step, same_eq] at h
  by_cases hc : c = q
  · subst hc
    rw [if_pos (by simp)] at h
    cases h
    exact inShort_quote hq (hgood.inside rfl)
  · rw [if_neg (by simpa using hc)] at h
    split at h
    · next hslash =>
      cases h
      obtain rfl := eq_of_beq hslash
      exact hgood hq
    · next hslash =>
      split at h
      · cases h
      · next hnewline =>
        cases h
        have hshort : S.InShort q cs := hgood hq
        exact hshort.cons hc (by simpa using hnewline) (by simpa using hslash)

/-- Quotes that another character follows stand in the text. -/
theorem InLong.quotes {q : Char} (h : S.InLong q (c :: cs)) (hq : isQuote q = true) (hc : c ≠ q)
    (twice : Bool) :
    S.InLong q (if twice then q :: q :: c :: cs else q :: c :: cs) := by
  have hslash : q ≠ '\\' := by rintro rfl; cases hq
  have hone : S.InLong q (q :: c :: cs) := h.cons hslash (by simp [List.isPrefixOf, Ne.symm hc])
  cases twice with
  | false => exact hone
  | true => exact hone.cons hslash (by simp [List.isPrefixOf, Ne.symm hc])

theorem inLong_of_longStep {q : Char} (hgood : (S.longStep q c).Good cs) (hq : isQuote q = true) :
    S.InLong q (c :: cs) := by
  unfold longStep at hgood
  simp only [same_eq] at hgood
  by_cases hc : c = q
  · subst hc
    rw [if_pos (by simp)] at hgood
    exact hgood hq
  · rw [if_neg (by simpa using hc)] at hgood
    split at hgood
    · next hslash =>
      obtain rfl := eq_of_beq hslash
      exact hgood hq
    · next hslash =>
      have hlong : S.InLong q cs := hgood hq
      exact hlong.cons (by simpa using hslash) (by simp [hc])

theorem good_of_step_closing {q : Char} {twice : Bool}
    (h : ({ S with mode := .closing q twice } : Scan).step c = some S')
    (hgood : S'.Good cs) (hq : isQuote q = true) :
    S.InLong q (if twice then q :: q :: c :: cs else q :: c :: cs) := by
  simp only [step, same_eq] at h
  by_cases hc : c = q
  · subst hc
    rw [if_pos (by simp)] at h
    cases twice with
    | true =>
      cases h
      exact inLong_quotes hq (hgood.inside rfl)
    | false =>
      cases h
      exact hgood hq
  · rw [if_neg (by simpa using hc)] at h
    cases h
    exact (inLong_of_longStep hgood hq).quotes hq hc twice

theorem good_of_step_comment {own : Bool} (hmode : S.mode = .comment own)
    (h : S.step c = some S') (hgood : S'.Good cs) : S.Good (c :: cs) := by
  obtain ⟨mode, brackets, indents, slots, headed, line⟩ := S
  cases hmode
  simp only [step, same_eq] at h
  split at h
  · next hnewline =>
    obtain rfl := eq_of_beq hnewline
    cases own with
    | true =>
      cases h
      exact Outside.of_eq hgood rfl rfl rfl rfl
    | false => exact inside_of_innerStep h hgood
  · next hnewline =>
    cases h
    have hne : (c != '\n') = true := by simpa using hnewline
    simpa only [Good, List.dropWhile_cons_of_pos (p := (· != '\n')) hne] using hgood

/-! ## All modes -/

/-- What goes on well behind a character goes on well with it. -/
theorem good_of_step (h : S.step c = some S') (hgood : S'.Good cs) : S.Good (c :: cs) := by
  obtain ⟨mode, brackets, indents, slots, headed, line⟩ := S
  cases mode with
  | start n => exact (good_of_step_start h hgood).of_eq rfl rfl rfl rfl
  | inner => exact inside_of_innerStep h hgood
  | word w => exact fun hw => good_of_step_word h hgood hw
  | name => exact fun w hw hopen => good_of_step_name h hgood hw hopen
  | zero =>
    simp only [step, same_eq] at h
    split at h
    · cases h
    · next hends =>
      have hends : endsNumber c = true := by simpa [endsNumber] using hends
      exact (inside_of_number [] (by decide) (read_zero hends cs) h hgood).of_eq rfl rfl rfl rfl
  | number => exact fun d ds hds hd => good_of_step_number h hgood hds hd
  | mark d => exact good_of_step_mark h hgood
  | stars =>
    simp only [step, same_eq] at h
    split at h
    · cases h
    · next hequals =>
      have hinside := inside_of_innerStep h hgood
      exact (hinside.of_eq rfl rfl rfl rfl).mark (by simp) fun fuel p =>
        tokens_stars (by simpa using hequals) fuel p cs
  | quoted q => exact fun hq w hw => good_of_step_quoted h hgood hq hw
  | empty q => exact fun hq w hw => good_of_step_empty h hgood hq hw
  | short q => exact fun hq => good_of_step_short h hgood hq
  | escaped q =>
    intro hq
    simp only [step, same_eq] at h
    split at h
    · cases h
    · next hnewline =>
      cases h
      exact InShort.escape (hgood hq) (by simpa using hnewline)
  | long q =>
    cases h
    exact fun hq => inLong_of_longStep hgood hq
  | behind k =>
    simp only [step] at h
    split at h
    · next hends => exact ⟨⟨c, cs, rfl, hends⟩, (inside_of_innerStep h hgood).of_eq rfl rfl rfl rfl⟩
    · cases h
  | text q =>
    intro hq
    simp only [step, same_eq] at h
    split at h
    · cases h
    · next hc =>
      cases h
      exact ⟨by simpa using hc, inLong_of_longStep hgood hq⟩
  | closing q twice => exact fun hq => good_of_step_closing h hgood hq
  | longEscaped q =>
    intro hq
    cases h
    exact InLong.escape (hgood hq)
  | comment own => exact good_of_step_comment rfl h hgood

end FlowMachine.Module.Scan
