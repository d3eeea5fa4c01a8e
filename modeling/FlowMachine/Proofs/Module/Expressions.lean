import FlowMachine.Proofs.Module.Taking

/-!
# Reading operators and operands

Readers of operators and of operands agree with the readers of kinds beside them, if the readers
that they call do with less fuel.
-/
namespace FlowMachine.Module

variable {f : Nat}

/-! ## Operators -/

theorem agrees_expression (hdisj : Agrees disjunction f (Phrase.disjunction f))
    (hcond : AgreesBehind conditional f (Phrase.conditional f)) :
    Agrees expression (f + 1) (Phrase.expression (f + 1)) := by
  intro ks left h
  obtain ⟨inner, hinner, h⟩ := Option.bind_eq_some_iff.mp h
  split_ifs at h with hstarts
  refine .of_succ fun zs ts hts fuel hfuel => ?_
  obtain ⟨e, us, hrun, hus, hlen, hfits⟩ := hdisj hinner hts hfuel
  obtain ⟨e', vs, hrun', hvs, hlen', hfits'⟩ := hcond hfits h hus (by omega : _ ≤ fuel)
  refine ⟨e', vs, ?_, hvs, by omega, hfits'⟩
  have hlambda : frontIs "lambda" ts = false := hts.frontIs_absent (by decide)
  have hstop : startsExpression us = false := by rw [hus.startsExpression_eq]; simpa using hstarts
  simp [expression, hlambda, hrun, neighbour_of_not_starts hstop, hrun']

theorem agrees_conditional (hdisj : Agrees disjunction f (Phrase.disjunction f))
    (hexpr : Agrees expression f (Phrase.expression f)) :
    AgreesBehind conditional (f + 1) (Phrase.conditional (f + 1)) := by
  intro single e he ks left h
  refine .of_succ fun zs ts hts fuel hfuel => ?_
  have hif : frontIs "if" ts = isAt .if ks := hts.frontIs_sign .if rfl
  rw [Phrase.conditional] at h
  split_ifs at h with hat
  · obtain ⟨condition, hcondition, h⟩ := Option.bind_eq_some_iff.mp h
    obtain ⟨mid, hmid, h⟩ := Option.bind_eq_some_iff.mp h
    obtain ⟨hat', rfl⟩ := Phrase.behind?_eq_some.mp hmid
    obtain ⟨last, hlast, h⟩ := Option.bind_eq_some_iff.mp h
    cases h
    obtain ⟨htail, hless⟩ := hts.tail hat
    obtain ⟨e₁, us, hrun, hus, hlen, -⟩ := hdisj hcondition htail (by omega : _ ≤ fuel)
    obtain ⟨htail', hless'⟩ := hus.tail hat'
    obtain ⟨e₂, vs, hrun', hvs, hlen', -⟩ := hexpr hlast htail' (by omega : _ ≤ fuel)
    refine ⟨_, vs, ?_, hvs, by omega, fits_other "conditional expression" false e.line⟩
    have helse : frontIs "else" us = isAt .else condition.2 := hus.frontIs_sign .else rfl
    simp [conditional, hif, hat, hrun, helse, hat', hrun']
  · cases h
    exact ⟨e, ts, by simp [conditional, hif, hat], hts, Nat.le_refl _, he⟩

theorem agrees_disjunction (hinv : Agrees inversion f (Phrase.inversion f))
    (hdisj : Agrees disjunction f (Phrase.disjunction f)) :
    Agrees disjunction (f + 1) (Phrase.disjunction (f + 1)) := by
  intro ks left h
  obtain ⟨inner, hinner, h⟩ := Option.bind_eq_some_iff.mp h
  refine .of_succ fun zs ts hts fuel hfuel => ?_
  obtain ⟨e, us, hrun, hus, hlen, hfits⟩ := hinv hinner hts hfuel
  have hand : frontIs "and" us = isAt .and inner.2 := hus.frontIs_sign .and rfl
  have hor : frontIs "or" us = isAt .or inner.2 := hus.frontIs_sign .or rfl
  split_ifs at h with hat
  · obtain ⟨last, hlast, h⟩ := Option.bind_eq_some_iff.mp h
    cases h
    obtain ⟨htail, hless⟩ : Spells zs inner.2.tail us.tail ∧ us.tail.length + 1 = us.length := by
      rcases Bool.or_eq_true_iff.mp hat with hat | hat <;> exact hus.tail hat
    obtain ⟨e', vs, hrun', hvs, hlen', -⟩ := hdisj hlast htail (by omega : _ ≤ fuel)
    refine ⟨_, vs, ?_, hvs, by omega, fits_other "expression" false e.line⟩
    have hany : (frontIs "and" us || frontIs "or" us) = true := by rw [hand, hor, hat]
    simp [disjunction, hrun, hany, hrun', -Bool.or_eq_true]
  · cases h
    have hany : (frontIs "and" us || frontIs "or" us) = false := by simpa [hand, hor] using hat
    exact ⟨e, us, by simp [disjunction, hrun, hany, -Bool.or_eq_true], hus, by omega, hfits⟩

theorem agrees_inversion (hinv : Agrees inversion f (Phrase.inversion f))
    (hcomp : Agrees comparison f (Phrase.comparison f)) :
    Agrees inversion (f + 1) (Phrase.inversion (f + 1)) := by
  intro ks left h
  refine .of_succ fun zs ts hts fuel hfuel => ?_
  have hnot : frontIs "not" ts = isAt .not ks := hts.frontIs_sign .not rfl
  rw [Phrase.inversion] at h
  split_ifs at h with hat
  · obtain ⟨inner, hinner, h⟩ := Option.bind_eq_some_iff.mp h
    cases h
    obtain ⟨htail, hless⟩ := hts.tail hat
    obtain ⟨e, us, hrun, hus, hlen, -⟩ := hinv hinner htail (by omega : _ ≤ fuel)
    refine ⟨_, us, ?_, hus, by omega, fits_other "expression" false (lineOf ts)⟩
    simp [inversion, hnot, hat, hrun]
  · obtain ⟨e, us, hrun, hus, hlen, hfits⟩ := hcomp h hts hfuel
    exact ⟨e, us, by simp [inversion, hnot, hat, hrun], hus, hlen, hfits⟩

theorem comparisons_any {zs ts : List Token} {ks : List Kind} (hts : Spells zs ks ts) :
    comparisons.any (frontIs · ts) = Phrase.comparesAt ks := by
  have (s : Sign) (hs : s.opens = false) := hts.frontIs_sign s hs
  simp only [Phrase.comparesAt, List.any_cons, List.any_nil, ← this .less rfl, ← this .greater rfl,
    ← this .atMost rfl, ← this .atLeast rfl, ← this .same rfl, ← this .differs rfl]
  rfl

theorem acceptComparison_eq {zs ts : List Token} {ks : List Kind} (hts : Spells zs ks ts) :
    match Phrase.behindComparison? ks with
    | some rest => ∃ byIn us, acceptComparison true ts = .ok (some byIn, us) ∧ Spells zs rest us ∧
      us.length ≤ ts.length
    | none => acceptComparison true ts = .ok (none, ts) := by
  have hcompare := comparisons_any hts
  have hin : frontIs "in" ts = isAt .in ks := hts.frontIs_sign .in rfl
  have his : frontIs "is" ts = isAt .is ks := hts.frontIs_sign .is rfl
  unfold Phrase.behindComparison?
  split_ifs with hby hat hboth
  · cases hop : Phrase.comparesAt ks with
    | true =>
      obtain ⟨s, -, hs⟩ := List.any_eq_true.mp hop
      obtain ⟨htail, hless⟩ := hts.tail hs
      exact ⟨false, ts.tail, by simp [acceptComparison, hcompare, hop], htail, by omega⟩
    | false =>
      have hat : isAt .in ks = true := by simpa [hop] using hby
      obtain ⟨htail, hless⟩ := hts.tail hat
      exact ⟨true, ts.tail, by simp [acceptComparison, hcompare, hop, hin, hat], htail, by omega⟩
  · obtain ⟨hop, hnotin⟩ : Phrase.comparesAt ks = false ∧ isAt .in ks = false := by simpa using hby
    obtain ⟨htail, hless⟩ := hts.tail hat
    have hnot : frontIs "not" ts.tail = isAt .not ks.tail := htail.frontIs_sign .not rfl
    cases hatnot : isAt .not ks.tail with
    | true =>
      obtain ⟨htail', hless'⟩ := htail.tail hatnot
      refine ⟨false, ts.tail.tail, ?_, ?_, by omega⟩
      · simp [acceptComparison, hcompare, hop, hin, hnotin, his, hat, hnot, hatnot]
      · simpa [Phrase.dropSign, hatnot] using htail'
    | false =>
      refine ⟨false, ts.tail, ?_, ?_, by omega⟩
      · simp [acceptComparison, hcompare, hop, hin, hnotin, his, hat, hnot, hatnot]
      · simpa [Phrase.dropSign, hatnot] using htail
  · obtain ⟨hop, hnotin⟩ : Phrase.comparesAt ks = false ∧ isAt .in ks = false := by simpa using hby
    obtain ⟨hatnot, hatin⟩ := Bool.and_eq_true_iff.mp hboth
    have hnotis : isAt .is ks = false := by simpa using hat
    obtain ⟨htail, hless⟩ := hts.tail hatnot
    obtain ⟨htail', hless'⟩ := htail.tail hatin
    obtain ⟨line, level, rest, rfl⟩ := hts.eq_cons hatnot
    obtain ⟨line', level', rest', hrest⟩ := htail.eq_cons hatin
    rw [List.tail_cons] at hrest
    subst hrest
    refine ⟨false, rest', ?_, htail', by simp; omega⟩
    simp [acceptComparison, hcompare, hop, hin, hnotin, his, hnotis]
    rfl
  · obtain ⟨hop, hnotin⟩ : Phrase.comparesAt ks = false ∧ isAt .in ks = false := by simpa using hby
    have hnotis : isAt .is ks = false := by simpa using hat
    simp [acceptComparison, hcompare, hop, hin, hnotin, his, hnotis]
    split
    · refine absurd ?_ hboth
      have hatnot : isAt .not ks = true := (hts.frontIs_sign .not rfl).symm.trans (by rfl)
      have hatin : isAt .in ks.tail = true :=
        ((hts.tail hatnot).1.frontIs_sign .in rfl).symm.trans (by rfl)
      rw [hatnot, hatin, Bool.and_self]
    · rfl

theorem agrees_comparison (harith : Agrees arithmetic f (Phrase.arithmetic f))
    (hcomp : Agrees comparison f (Phrase.comparison f)) :
    Agrees comparison (f + 1) (Phrase.comparison (f + 1)) := by
  intro ks left h
  obtain ⟨inner, hinner, h⟩ := Option.bind_eq_some_iff.mp h
  refine .of_succ fun zs ts hts fuel hfuel => ?_
  obtain ⟨e, us, hrun, hus, hlen, hfits⟩ := harith hinner hts hfuel
  have haccept := acceptComparison_eq hus
  cases hbehind : Phrase.behindComparison? inner.2 with
  | none =>
    rw [hbehind] at h haccept
    cases h
    exact ⟨e, us, by simp [comparison, hrun, haccept], hus, by omega, hfits⟩
  | some behind =>
    rw [hbehind] at h haccept
    obtain ⟨last, hlast, h⟩ := Option.bind_eq_some_iff.mp h
    cases h
    obtain ⟨byIn, vs, hby, hvs, hlen'⟩ := haccept
    obtain ⟨e', ws, hrun', hws, hlen'', -⟩ := hcomp hlast hvs (by omega : _ ≤ fuel)
    cases byIn with
    | false => exact ⟨_, ws, by simp [comparison, hrun, hby, hrun'], hws, by omega,
      fits_other "comparison" false e.line⟩
    | true =>
      exact ⟨_, ws, by simp [comparison, hrun, hby, hrun'], hws, by omega, fits_within e e.line⟩

theorem binaryOperators_any {zs ts : List Token} {ks : List Kind} (hts : Spells zs ks ts) :
    binaryOperators.any (frontIs · ts) = Phrase.joinsAt ks := by
  have (s : Sign) (hs : s.opens = false) := hts.frontIs_sign s hs
  have habsent {word : String} (hword : word ∈ absentWords) := hts.frontIs_absent hword
  simp only [binaryOperators, Phrase.joinsAt, List.any_cons, List.any_nil, ← this .plus rfl,
    ← this .minus rfl,
    ← this .star rfl, ← this .at rfl, ← this .doubleStar rfl,
    habsent (by decide : "/" ∈ absentWords),
    habsent (by decide : "//" ∈ absentWords), habsent (by decide : "%" ∈ absentWords),
    habsent (by decide : "<<" ∈ absentWords),
    habsent (by decide : ">>" ∈ absentWords), habsent (by decide : "&" ∈ absentWords),
    habsent (by decide : "|" ∈ absentWords),
    habsent (by decide : "^" ∈ absentWords), Bool.or_false, Bool.false_or]
  rfl

theorem agrees_arithmetic (hfactor : Agrees factor f (Phrase.factor f))
    (harith : Agrees arithmetic f (Phrase.arithmetic f)) :
    Agrees arithmetic (f + 1) (Phrase.arithmetic (f + 1)) := by
  intro ks left h
  obtain ⟨inner, hinner, h⟩ := Option.bind_eq_some_iff.mp h
  refine .of_succ fun zs ts hts fuel hfuel => ?_
  obtain ⟨e, us, hrun, hus, hlen, hfits⟩ := hfactor hinner hts hfuel
  have hany := binaryOperators_any hus
  split_ifs at h with hat
  · obtain ⟨last, hlast, h⟩ := Option.bind_eq_some_iff.mp h
    cases h
    obtain ⟨s, -, hs⟩ := List.any_eq_true.mp hat
    obtain ⟨htail, hless⟩ := hus.tail hs
    obtain ⟨e', vs, hrun', hvs, hlen', -⟩ := harith hlast htail (by omega : _ ≤ fuel)
    refine ⟨_, vs, ?_, hvs, by omega, fits_other "expression" true e.line⟩
    simp [arithmetic, hrun, hany, hat, hrun']
  · cases h
    exact ⟨e, us, by simp [arithmetic, hrun, hany, hat], hus, by omega, hfits⟩

theorem agrees_factor (hfactor : Agrees factor f (Phrase.factor f))
    (hprimary : Agrees primary f (Phrase.primary f)) :
    Agrees factor (f + 1) (Phrase.factor (f + 1)) := by
  intro ks left h
  refine .of_succ fun zs ts hts fuel hfuel => ?_
  have hminus : frontIs "-" ts = isAt .minus ks := hts.frontIs_sign .minus rfl
  have hplus : frontIs "+" ts = isAt .plus ks := hts.frontIs_sign .plus rfl
  have htilde : frontIs "~" ts = false := hts.frontIs_absent (by decide)
  have hawait : frontIs "await" ts = false := hts.frontIs_absent (by decide)
  have hany : unaryOperators.any (frontIs · ts) = (isAt .minus ks || isAt .plus ks) := by
    simp only [unaryOperators, List.any_cons, List.any_nil, hminus, hplus, htilde, Bool.or_false]
  rw [Phrase.factor] at h
  split_ifs at h with hat
  · obtain ⟨inner, hinner, h⟩ := Option.bind_eq_some_iff.mp h
    cases h
    obtain ⟨htail, hless⟩ : Spells zs ks.tail ts.tail ∧ ts.tail.length + 1 = ts.length := by
      rcases Bool.or_eq_true_iff.mp hat with hat | hat <;> exact hts.tail hat
    obtain ⟨e, us, hrun, hus, hlen, -⟩ := hfactor hinner htail (by omega : _ ≤ fuel)
    refine ⟨_, us, ?_, hus, by omega, fits_other "expression" true (lineOf ts)⟩
    simp [factor, hany, hat, hrun, -Bool.or_eq_true]
  · obtain ⟨e, us, hrun, hus, hlen, hfits⟩ := hprimary h hts hfuel
    exact ⟨e, us, by simp [factor, hany, hat, hawait, hrun, -Bool.or_eq_true], hus, hlen, hfits⟩

theorem agrees_primary (hatom : Agrees atom f (Phrase.atom f))
    (htrailers : AgreesBehind trailers f (Phrase.trailers f)) :
    Agrees primary (f + 1) (Phrase.primary (f + 1)) := by
  intro ks left h
  obtain ⟨inner, hinner, h⟩ := Option.bind_eq_some_iff.mp h
  refine .of_succ fun zs ts hts fuel hfuel => ?_
  obtain ⟨e, us, hrun, hus, hlen, hfits⟩ := hatom hinner hts hfuel
  obtain ⟨e', vs, hrun', hvs, hlen', hfits'⟩ := htrailers hfits h hus (by omega : _ ≤ fuel)
  exact ⟨e', vs, by simp [primary, hrun, hrun'], hvs, by omega, hfits'⟩

/-! ## Operands -/

/-- The token is a text. -/
def Token.isString (t : Token) : Bool :=
  match t.lexeme with
  | .string _ _ => true
  | _ => false

theorem dropWhile_isString {zs ts : List Token} {ks : List Kind} (h : Spells zs ks ts) :
    (∀ t ∈ ts.takeWhile Token.isString, ∃ formatted, t.lexeme = .string false formatted) ∧
      Spells zs (ks.dropWhile (· == .string)) (ts.dropWhile Token.isString) := by
  have hstop {t : Token} {ts : List Token} (ht : t.isString = false) (hts : Spells zs ks (t :: ts))
      (hks : ks.dropWhile (· == .string) = ks) :
      (∀ u ∈ (t :: ts).takeWhile Token.isString, ∃ formatted, u.lexeme = .string false formatted) ∧
        Spells zs (ks.dropWhile (· == .string)) ((t :: ts).dropWhile Token.isString) := by
    rw [List.takeWhile_cons_of_neg (by simp [ht]), List.dropWhile_cons_of_neg (by simp [ht]), hks]
    exact ⟨nofun, hts⟩
  induction h with
  | nil line level => exact hstop rfl (.nil line level) rfl
  | sign s line level h =>
    exact hstop (by unfold Sign.lexeme; split <;> rfl) (.sign s line level h) rfl
  | name word line level hword h => exact hstop rfl (.name word line level hword h) rfl
  | number line level h => exact hstop rfl (.number line level h) rfl
  | display h hrest =>
    obtain ⟨s, -, line, level, us, rfl⟩ := h.front
    exact hstop rfl (.display h hrest) rfl
  | @string ks ts formatted line level h ih =>
    obtain ⟨hall, hrest⟩ := ih fun ht hts hks => by
      rw [List.takeWhile_cons_of_neg (by simp [ht]), List.dropWhile_cons_of_neg (by simp [ht]), hks]
      exact ⟨nofun, hts⟩
    rw [List.takeWhile_cons_of_pos rfl, List.dropWhile_cons_of_pos rfl,
      List.dropWhile_cons_of_pos rfl]
    refine ⟨fun t ht => ?_, hrest⟩
    rcases List.mem_cons.mp ht with rfl | ht
    · exact ⟨formatted, rfl⟩
    · exact hall t ht

/-- Texts side by side are one operand. -/
theorem takeStrings_eq {zs ts : List Token} {ks : List Kind} (h : Spells zs ks ts) :
    ∃ e, takeStrings true ts = .ok (e, ts.dropWhile Token.isString) ∧ e.Fits false := by
  obtain ⟨hall, -⟩ := dropWhile_isString h
  have hbytes : ((ts.takeWhile Token.isString).map fun t => match t.lexeme with
      | .string ofBytes formatted => (ofBytes, formatted)
      | _ => (false, false)).any (·.1) = false := by
    rw [List.any_eq_false]
    intro pair hpair
    obtain ⟨t, ht, rfl⟩ := List.mem_map.mp hpair
    obtain ⟨formatted, hlexeme⟩ := hall t ht
    simp [hlexeme]
  unfold takeStrings
  simp only [run_bind, run_get, run_set]
  split
  · next hmixed => exact absurd ((Bool.and_eq_true_iff.mp hmixed).1.symm.trans hbytes) nofun
  · exact ⟨_, rfl, fits_other _ true _⟩

theorem lexeme_of_opens : ∀ {s : Sign}, s.opens = true → s.lexeme = .mark s.text := by
  have : ∀ s ∈ Sign.all, s.opens = true → s.lexeme = .mark s.text := by decide +kernel
  exact fun {s} => this s (Sign.mem_all s)

theorem constants_subset : ∀ word ∈ Expr.constants, word ∈ keywords := by decide

theorem agrees_constant {s : Sign} (hs : s.lexeme = .name s.text)
    (hconstant : s.text ∈ Expr.constants)
    {zs ts : List Token} {ks : List Kind} (h : Spells zs ks ts) (line level fuel : Nat) :
    ∃ e us, atom (fuel + 1) true (⟨s.lexeme, line, level⟩ :: ts) = .ok (e, us) ∧ Spells zs ks us ∧
      us.length ≤ ts.length + 1 ∧ e.Fits false :=
  ⟨_, ts, by simp [atom, hs, hconstant], h, by simp, fits_other s.text true line⟩

theorem agrees_atom (hgroup : ∀ line, Follows (group · line) Expr.IsBare f (Phrase.group f))
    (hlist : ∀ line, Follows (listDisplay · line) Expr.IsBare f (Phrase.listDisplay f))
    (hbraces : ∀ line, Follows (braces · line) Expr.IsBare f (Phrase.braces f)) :
    Agrees atom (f + 1) (Phrase.atom (f + 1)) := by
  intro ks left h
  refine .of_succ fun zs ts hts fuel hfuel => ?_
  have hbracket {g : Nat → Nat → Reader Expr} {k : List Kind → Option (List Kind)}
      (hg : ∀ line, Follows (g · line) Expr.IsBare f k) {ks us} (hus : Spells zs ks us) (line : Nat)
      (h : (k ks).map (false, ·) = some left) (hlen : us.length < ts.length) :
      ∃ e vs, g fuel line true us = .ok (e, vs) ∧ Spells zs left.2 vs ∧ vs.length ≤ ts.length ∧
        e.Fits left.1 := by
    obtain ⟨rest, hrest, rfl⟩ := Option.map_eq_some_iff.mp h
    obtain ⟨e, vs, hrun, hvs, hlen', hbare⟩ := hg line hrest hus (by omega : _ ≤ fuel)
    exact ⟨e, vs, hrun, hvs, by omega, hbare, nofun⟩
  cases hts with
  | nil => cases h
  | number line level h' =>
    cases h
    exact ⟨_, _, by simp [atom], h', by simp, fits_other "literal" true line⟩
  | name word line level hword h' =>
    cases h
    have hconstant : word ∉ Expr.constants := fun hmem => hword.1 (constants_subset word hmem)
    exact ⟨.name word line, _, by simp [atom, hconstant, hword.1], h', by simp, trivial,
      fun _ => rfl⟩
  | @string ks ts formatted line level h' =>
    cases h
    have hts : Spells zs (.string :: ks) (⟨.string false formatted, line, level⟩ :: ts) :=
      .string formatted line level h'
    obtain ⟨e, hrun, hfits⟩ := takeStrings_eq hts
    exact ⟨e, _, by simp only [atom, run_bind, run_get, hrun], (dropWhile_isString hts).2,
      (List.dropWhile_sublist _).length_le, hfits⟩
  | display hdata h' =>
    cases h
    obtain ⟨e, hrun, hbare⟩ := hdata.reads (fuel + 1) (by simp at hfuel; omega) _
    exact ⟨e, _, hrun, h', by simp, hbare, nofun⟩
  | @sign ks ts s line level h' =>
    cases s with
    | openParen =>
      have hlexeme : Sign.openParen.lexeme = .mark "(" := lexeme_of_opens rfl
      obtain ⟨e, vs, hrun, hvs⟩ := hbracket hgroup h' line h (by simp)
      exact ⟨e, vs, by simpa [atom, hlexeme] using hrun, hvs⟩
    | openBracket =>
      have hlexeme : Sign.openBracket.lexeme = .mark "[" := lexeme_of_opens rfl
      obtain ⟨e, vs, hrun, hvs⟩ := hbracket hlist h' line h (by simp)
      exact ⟨e, vs, by simpa [atom, hlexeme] using hrun, hvs⟩
    | openBrace =>
      have hlexeme : Sign.openBrace.lexeme = .mark "\x7b" := lexeme_of_opens rfl
      obtain ⟨e, vs, hrun, hvs⟩ := hbracket hbraces h' line h (by simp)
      exact ⟨e, vs, by simpa [atom, hlexeme] using hrun, hvs⟩
    | none => cases h; exact agrees_constant (by decide) (by decide) h' line level fuel
    | true => cases h; exact agrees_constant (by decide) (by decide) h' line level fuel
    | false => cases h; exact agrees_constant (by decide) (by decide) h' line level fuel
    | _ => cases h

theorem agrees_trailers (harguments : ∀ a : Arguments, (a.keyword || a.unpacked) = false →
      Follows (arguments · true a) anything f (Phrase.arguments f false))
    (hslices : Follows slices anything f (Phrase.slices f))
    (htrailers : AgreesBehind trailers f (Phrase.trailers f)) :
    AgreesBehind trailers (f + 1) (Phrase.trailers (f + 1)) := by
  intro single e he ks left h
  refine .of_succ fun zs ts hts fuel hfuel => ?_
  have hbracket {r : Nat → Reader Unit} {k : List Kind → Option (List Kind)}
    (hr : Follows r anything f k)
      {ks us} (hus : Spells zs ks us) {single : Bool}
        (h : (do Phrase.trailers f single (← k ks)) = some left)
      {e : Expr} (hfits : e.Fits single) (hlen : us.length < ts.length) :
      ∃ e' ws, (do r fuel; trailers fuel e) true us = .ok (e', ws) ∧ Spells zs left.2 ws ∧
        ws.length ≤ ts.length ∧ e'.Fits left.1 := by
    obtain ⟨mid, hmid, h⟩ := Option.bind_eq_some_iff.mp h
    obtain ⟨_, vs, hrun, hvs, hlen', -⟩ := hr hmid hus (by omega : _ ≤ fuel)
    obtain ⟨e', ws, hrun', hws, hlen'', hfits'⟩ := htrailers hfits h hvs (by omega : _ ≤ fuel)
    exact ⟨e', ws, by simp [hrun, hrun'], hws, by omega, hfits'⟩
  rw [Phrase.trailers] at h
  split_ifs at h with hdisplay hparen hbrack hdot hname
  all_goals
    have hparen' : frontIs "(" ts = isAt .openParen ks :=
      hts.frontIs_open .openParen (by simpa using hdisplay)
    have hbrack' : frontIs "[" ts = isAt .openBracket ks :=
      hts.frontIs_open .openBracket (by simpa using hdisplay)
    have hdot' : frontIs "." ts = isAt .dot ks := hts.frontIs_sign .dot rfl
  · obtain ⟨htail, hless⟩ := hts.tail hparen
    obtain ⟨e', ws, hrun, hws⟩ :=
      hbracket (harguments ⟨lineOf ts.tail, true, false, false⟩ rfl) htail h
      (fits_other "function call" true e.line) (by omega)
    exact ⟨e', ws, by simpa [trailers, hparen', hparen] using hrun, hws⟩
  · obtain ⟨htail, hless⟩ := hts.tail hbrack
    obtain ⟨e', ws, hrun, hws⟩ := hbracket hslices htail h (fits_part "subscript" e.line) (by omega)
    exact ⟨e', ws, by simpa [trailers, hparen', hparen, hbrack', hbrack] using hrun, hws⟩
  · obtain ⟨htail, hless⟩ := hts.tail hdot
    obtain ⟨word, hword, htail', hless'⟩ : ∃ word,
        takeName true ts.tail = .ok (word, ts.tail.tail) ∧
        Spells zs ks.tail.tail ts.tail.tail ∧ ts.tail.tail.length + 1 = ts.tail.length := by
      rcases Bool.or_eq_true_iff.mp hname with hname | hat
      · exact htail.run_takeName hname
      · exact htail.run_takeName_match hat
    obtain ⟨e', ws, hrun, hws, hlen, hfits⟩ :=
      htrailers (fits_part "attribute" e.line) h htail' (by omega : _ ≤ fuel)
    exact ⟨e', ws, by simp [trailers, hparen', hparen, hbrack', hbrack, hdot', hdot, hword, hrun],
      hws, by omega, hfits⟩
  · cases h
    exact ⟨e, ts, by simp [trailers, hparen', hparen, hbrack', hbrack, hdot', hdot], hts,
      Nat.le_refl _, he⟩

end FlowMachine.Module
