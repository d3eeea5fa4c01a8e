import FlowMachine.Proofs.Module.Displays

/-!
# Reading arguments

Readers of arguments and of parameters agree with the readers of kinds beside them, and so, by
induction on the fuel, do all readers of expressions.
-/
namespace FlowMachine.Module

variable {f : Nat}

/-! ## Arguments -/

theorem constant_not_assigned {zs ts : List Token} {ks : List Kind} (h : Spells zs ks ts)
    (hequals : isAt .equals ks.tail = false) {word : String} {line level : Nat} {rest : List Token}
    (heq : ts = ⟨.name word, line, level⟩ :: rest) :
    (Expr.constants.contains word && frontIs "=" rest) = false := by
  cases h with
  | @sign ks us s _ _ h =>
    have hrest : us = rest := (List.cons.inj heq).2
    have hfront : frontIs "=" us = isAt .equals ks := h.frontIs_sign .equals rfl
    rw [← hrest, hfront]
    exact Bool.and_eq_false_iff.mpr (.inr hequals)
  | name _ _ _ hword h =>
    cases heq
    have hconstant : word ∉ Expr.constants := fun hmem => hword.1 (constants_subset word hmem)
    simp [hconstant]
  | display hdata _ =>
    obtain ⟨s, -, _, _, us, rfl⟩ := hdata.front
    cases heq
  | _ => cases heq

/-- What follows an argument: a comma and further arguments, or the closing parenthesis. -/
theorem behind_argument {call : Bool}
    (hmore : ∀ a : Arguments,
    Follows (arguments · call a) anything f (Phrase.arguments f (a.keyword || a.unpacked)))
    {zs us : List Token} {ms rest : List Kind} (hus : Spells zs ms us) (next : Arguments)
    {fuel : Nat}
    (hfuel : f + 8 * us.length ≤ fuel)
    (h : (if isAt .comma ms then Phrase.arguments f (next.keyword || next.unpacked) ms.tail
      else Phrase.behind? .closeParen ms) = some rest) :
    ∃ vs, (do if ← accept "," then arguments fuel call next else take ")" : Reader Unit) true us =
      .ok ((), vs) ∧
      Spells zs rest vs ∧ vs.length ≤ us.length := by
  have hcomma : frontIs "," us = isAt .comma ms := hus.frontIs_sign .comma rfl
  split_ifs at h with hat
  · obtain ⟨htail, hless⟩ := hus.tail hat
    obtain ⟨_, vs, hrun, hvs, hlen', -⟩ := hmore next h htail (by omega : _ ≤ fuel)
    exact ⟨vs, by simp [hcomma, hat, hrun], hvs, by omega⟩
  · obtain ⟨hat', rfl⟩ := Phrase.behind?_eq_some.mp h
    obtain ⟨htail, hless⟩ := hus.tail hat'
    have htake : take ")" true us = .ok ((), us.tail) := hus.run_take (s := .closeParen) rfl hat'
    exact ⟨_, by simp [hcomma, hat, htake], htail, by omega⟩

theorem follows_arguments (hexpr : Agrees expression f (Phrase.expression f)) (call : Bool)
    (hmore : ∀ a : Arguments,
    Follows (arguments · call a) anything f (Phrase.arguments f (a.keyword || a.unpacked)))
    (a : Arguments) :
    Follows (arguments · call a) anything (f + 1)
      (Phrase.arguments (f + 1) (a.keyword || a.unpacked)) := by
  intro ks rest h
  refine .of_succ fun zs ts hts fuel hfuel => ?_
  have hclose : frontIs ")" ts = isAt .closeParen ks := hts.frontIs_sign .closeParen rfl
  have hstar : frontIs "*" ts = isAt .star ks := hts.frontIs_sign .star rfl
  have hdouble : frontIs "**" ts = isAt .doubleStar ks := hts.frontIs_sign .doubleStar rfl
  have hpair : frontPair "=" ts =
    ((Phrase.isKind .name ks || isAt .match ks) && isAt .equals ks.tail) :=
    hts.frontPair_eq .equals rfl
  have hwalrus : frontPair ":=" ts = false := hts.frontPair_absent (by decide)
  rw [Phrase.arguments] at h
  by_cases hat : isAt .closeParen ks = true
  · rw [if_pos hat] at h
    cases h
    obtain ⟨htail, hless⟩ := hts.tail hat
    exact ⟨(), _, by simp [arguments, hclose, hat], htail, by omega, trivial⟩
  rw [if_neg hat] at h
  by_cases hatstar : isAt .star ks = true
  · rw [if_pos hatstar] at h
    cases h
  rw [if_neg hatstar] at h
  by_cases hatdouble : isAt .doubleStar ks = true
  · rw [if_pos hatdouble] at h
    obtain ⟨htail, hless⟩ := hts.tail hatdouble
    obtain ⟨inner, hinner, h⟩ := Option.bind_eq_some_iff.mp h
    obtain ⟨e, us, hrun, hus, hlen, -⟩ := hexpr hinner htail (by omega : _ ≤ fuel)
    obtain ⟨vs, hrun', hvs, hlen'⟩ :=
      behind_argument hmore hus { a with first := false, unpacked := true }
      (by omega : _ ≤ fuel) (by simpa using h)
    refine ⟨(), vs, ?_, hvs, by omega, trivial⟩
    simpa [arguments, hclose, hat, hstar, hatstar, hdouble, hatdouble, hrun] using hrun'
  rw [if_neg hatdouble] at h
  by_cases hequals : isAt .equals ks.tail = true
  · rw [if_pos hequals] at h
    by_cases hname : Phrase.isKind .name ks = true
    · rw [if_pos hname] at h
      obtain ⟨htail, hless⟩ := hts.tail_of_name hname
      obtain ⟨htail', hless'⟩ := htail.tail hequals
      obtain ⟨inner, hinner, h⟩ := Option.bind_eq_some_iff.mp h
      by_cases hfor : isAt .for inner.2 = true
      · rw [if_pos hfor] at h
        cases h
      rw [if_neg hfor] at h
      obtain ⟨e, us, hrun, hus, hlen, -⟩ := hexpr hinner htail' (by omega : _ ≤ fuel)
      obtain ⟨vs, hrun', hvs, hlen'⟩ :=
        behind_argument hmore hus { a with first := false, keyword := true }
        (by omega : _ ≤ fuel) (by simpa using h)
      refine ⟨(), vs, ?_, hvs, by omega, trivial⟩
      simpa [arguments, hclose, hat, hstar, hatstar, hdouble, hatdouble, hpair, hname,
        hequals, hrun, hus.startsClause_eq, hfor] using hrun'
    · rw [if_neg hname] at h
      cases h
  rw [if_neg hequals] at h
  obtain ⟨inner, hinner, h⟩ := Option.bind_eq_some_iff.mp h
  by_cases hbad : ((a.keyword || a.unpacked) || isAt .equals inner.2 || isAt .for inner.2) = true
  · rw [if_pos hbad] at h
    cases h
  rw [if_neg hbad] at h
  obtain ⟨⟨⟨hkeyword, hunpacked⟩, hnoequals⟩, hnofor⟩ : ((a.keyword = false ∧ a.unpacked = false) ∧
      isAt .equals inner.2 = false) ∧ isAt .for inner.2 = false := by simpa using hbad
  obtain ⟨e, us, hrun, hus, hlen, -⟩ := hexpr hinner hts hfuel
  obtain ⟨vs, hrun', hvs, hlen'⟩ :=
    behind_argument hmore hus { a with first := false } (by omega : _ ≤ fuel)
    (by simpa [hkeyword, hunpacked] using h)
  refine ⟨(), vs, ?_, hvs, by omega, trivial⟩
  have hequals' : frontIs "=" us = false := (hus.frontIs_sign .equals rfl).trans hnoequals
  have hnopair : frontPair "=" ts = false := by rw [hpair]; simp [hequals]
  have hconstant {word : String} {line level : Nat} {behind : List Token}
      (heq : ts = ⟨.name word, line, level⟩ :: behind) :
        ¬(word ∈ Expr.constants ∧ frontIs "=" behind = true) := by
    simpa using constant_not_assigned hts (by simpa using hequals) heq
  simp only [Bool.not_eq_true] at hat hatstar hatdouble
  simp [arguments, hclose, hat, hstar, hatstar, hdouble, hatdouble, hnopair]
  -- what is looked at before the argument is read is a constant that something is assigned to
  split
  · next word line level behind =>
    rw [if_neg (hconstant rfl)]
    simpa [hwalrus, hrun, hequals', hus.startsClause_eq, hnofor, hunpacked, hkeyword] using hrun'
  · simpa [hwalrus, hrun, hequals', hus.startsClause_eq, hnofor, hunpacked, hkeyword] using hrun'

/-! ## Parameters -/

theorem follows_parameterType (hexpr : Agrees expression f (Phrase.expression f)) :
    Follows (parameterType · true false) anything (f + 1) (Phrase.parameterType (f + 1)) := by
  intro ks rest h
  refine .of_succ fun zs ts hts fuel hfuel => ?_
  have hcolon : frontIs ":" ts = isAt .colon ks := hts.frontIs_sign .colon rfl
  rw [Phrase.parameterType] at h
  split_ifs at h with hat
  · obtain ⟨inner, hinner, h⟩ := Option.bind_eq_some_iff.mp h
    cases h
    obtain ⟨htail, hless⟩ := hts.tail hat
    obtain ⟨e, us, hrun, hus, hlen, -⟩ := hexpr hinner htail (by omega : _ ≤ fuel)
    exact ⟨(), us, by simp [parameterType, hcolon, hat, hrun], hus, by omega, trivial⟩
  · cases h
    exact ⟨(), ts, by simp [parameterType, hcolon, hat], hts, Nat.le_refl _, trivial⟩

/-- What follows a parameter: a comma and further parameters, or the closing parenthesis. -/
theorem behind_parameter {valued : Bool}
    (hmore : ∀ p : Parameters, p.unpacked = false → p.defaulted = valued →
      Follows (parameters · true ")" p) anything f (Phrase.parameters f valued))
    {zs us : List Token} {ms rest : List Kind} (hus : Spells zs ms us) (next : Parameters)
    (hnext : next.unpacked = false) (hvalued : next.defaulted = valued) {fuel : Nat}
    (hfuel : f + 8 * us.length ≤ fuel)
    (h : (if isAt .comma ms then Phrase.parameters f valued ms.tail
      else if isAt .closeParen ms then some ms else none) = some rest) :
    ∃ vs, (do
        if ← accept "," then parameters fuel true ")" next
        else unless ← sees ")" do misplaced : Reader Unit) true us = .ok ((), vs) ∧
      Spells zs rest vs ∧ vs.length ≤ us.length := by
  have hcomma : frontIs "," us = isAt .comma ms := hus.frontIs_sign .comma rfl
  have hclose : frontIs ")" us = isAt .closeParen ms := hus.frontIs_sign .closeParen rfl
  split_ifs at h with hat hat'
  · obtain ⟨htail, hless⟩ := hus.tail hat
    obtain ⟨_, vs, hrun, hvs, hlen', -⟩ := hmore next hnext hvalued h htail (by omega : _ ≤ fuel)
    exact ⟨vs, by simp [hcomma, hat, hrun], hvs, by omega⟩
  · cases h
    exact ⟨us, by simp [hcomma, hat, hclose, hat'], hus, Nat.le_refl _⟩

theorem follows_parameters (hexpr : Agrees expression f (Phrase.expression f))
    (htype : Follows (parameterType · true false) anything f (Phrase.parameterType f))
    (hmore : ∀ valued (p : Parameters), p.unpacked = false → p.defaulted = valued →
      Follows (parameters · true ")" p) anything f (Phrase.parameters f valued))
    {valued : Bool} {p : Parameters} (hp : p.unpacked = false) (hvalued : p.defaulted = valued) :
    Follows (parameters · true ")" p) anything (f + 1) (Phrase.parameters (f + 1) valued) := by
  intro ks rest h
  refine .of_succ fun zs ts hts fuel hfuel => ?_
  have hclose : frontIs ")" ts = isAt .closeParen ks := hts.frontIs_sign .closeParen rfl
  have hslash : frontIs "/" ts = false := hts.frontIs_absent (by decide)
  have hstar : frontIs "*" ts = isAt .star ks := hts.frontIs_sign .star rfl
  have hdouble : frontIs "**" ts = isAt .doubleStar ks := hts.frontIs_sign .doubleStar rfl
  rw [Phrase.parameters] at h
  by_cases hat : isAt .closeParen ks = true
  · rw [if_pos hat] at h
    cases h
    exact ⟨(), ts, by simp [parameters, hclose, hat], hts, Nat.le_refl _, trivial⟩
  rw [if_neg hat] at h
  by_cases hatdouble : isAt .doubleStar ks = true
  · rw [if_pos hatdouble] at h
    split_ifs at h with hname
    obtain ⟨mid, hmid, h⟩ := Option.bind_eq_some_iff.mp h
    split_ifs at h with hend
    cases h
    have hnostar : isAt .star ks = false := isAt_of_isAt hatdouble (by decide)
    obtain ⟨htail, hless⟩ := hts.tail hatdouble
    obtain ⟨word, hword, htail', hless'⟩ := htail.run_takeName hname
    obtain ⟨_, us, hrun, hus, hlen, -⟩ := htype hmid htail' (by omega : _ ≤ fuel)
    have hcomma : frontIs "," us = isAt .comma rest := hus.frontIs_sign .comma rfl
    have hend' : frontIs ")" us = isAt .closeParen rest := hus.frontIs_sign .closeParen rfl
    have hequals : frontIs "=" us = isAt .equals rest := hus.frontIs_sign .equals rfl
    refine ⟨(), us, ?_, hus, by omega, trivial⟩
    have hnocomma : isAt .comma rest = false := isAt_of_isAt hend (by decide)
    have hnoequals : isAt .equals rest = false := isAt_of_isAt hend (by decide)
    simp [parameters, hclose, hat, hp, hslash, hstar, hnostar, hdouble, hatdouble, hword, hrun,
      hequals, hnoequals, hcomma, hnocomma, hend', hend]
  rw [if_neg hatdouble] at h
  by_cases hname : Phrase.isKind .name ks = true
  case neg =>
    rw [if_neg hname] at h
    cases h
  rw [if_pos hname] at h
  obtain ⟨mid, hmid, h⟩ := Option.bind_eq_some_iff.mp h
  have hnostar : isAt .star ks = false := isAt_of_isKind hname
  have hnoopen : frontIs "(" ts = false :=
    (hts.frontIs_open .openParen (isKind_of_isKind hname (by decide))).trans (isAt_of_isKind hname)
  obtain ⟨word, hword, htail, hless⟩ := hts.run_takeName hname
  obtain ⟨_, us, hrun, hus, hlen, -⟩ := htype hmid htail (by omega : _ ≤ fuel)
  have hequals : frontIs "=" us = isAt .equals mid := hus.frontIs_sign .equals rfl
  by_cases hatequals : isAt .equals mid = true
  · rw [if_pos hatequals] at h
    obtain ⟨htail', hless'⟩ := hus.tail hatequals
    split_ifs at h with hbad
    obtain ⟨hnocomma, hnoclose⟩ : isAt .comma mid.tail = false ∧
      isAt .closeParen mid.tail = false := by simpa using hbad
    obtain ⟨inner, hinner, h⟩ := Option.bind_eq_some_iff.mp h
    obtain ⟨e, vs, hrun', hvs, hlen', -⟩ := hexpr hinner htail' (by omega : _ ≤ fuel)
    obtain ⟨ws, hrun'', hws, hlen''⟩ := behind_parameter (hmore true) hvs
      { p with defaulted := true, count := p.count + 1 } hp rfl (by omega : _ ≤ fuel) h
    have hnocomma' : frontIs "," us.tail = false := (htail'.frontIs_sign .comma rfl).trans hnocomma
    have hnoclose' : frontIs ")" us.tail = false :=
      (htail'.frontIs_sign .closeParen rfl).trans hnoclose
    refine ⟨(), ws, ?_, hws, by omega, trivial⟩
    simpa [parameters, hclose, hat, hp, hslash, hstar, hnostar, hdouble, hatdouble, hnoopen, hword,
      hrun, hequals, hatequals, hnocomma', hnoclose', hrun'] using hrun''
  · rw [if_neg hatequals] at h
    by_cases hnovalue : valued = true
    · rw [if_pos hnovalue] at h
      cases h
    rw [if_neg hnovalue] at h
    obtain ⟨ws, hrun'', hws, hlen''⟩ := behind_parameter (hmore false) hus
      { p with count := p.count + 1 } hp (by simp_all) (by omega : _ ≤ fuel) h
    refine ⟨(), ws, ?_, hws, by omega, trivial⟩
    simpa [parameters, hclose, hat, hp, hslash, hstar, hnostar, hdouble, hatdouble, hnoopen, hword,
      hrun, hequals, hatequals, hvalued, hnovalue] using hrun''

/-! ## Expressions parted by commas -/

theorem agrees_starExpression (hexpr : Agrees expression f (Phrase.expression f)) :
    Agrees starExpression (f + 1) (Phrase.starExpression (f + 1)) := by
  intro ks left h
  rw [Phrase.starExpression] at h
  split_ifs at h with hstar
  refine .of_succ fun zs ts hts fuel hfuel => ?_
  obtain ⟨e, us, hrun, hus, hlen, hfits⟩ := hexpr h hts hfuel
  have hstar' : frontIs "*" ts = isAt .star ks := hts.frontIs_sign .star rfl
  exact ⟨e, us, by simp [starExpression, hstar', hstar, hrun], hus, hlen, hfits⟩

/-- Further expressions, all of which are names or parts of objects if that is asked for. -/
def AgreesMany (f : Nat) (g : List Kind → Option Left) : Prop :=
  ∀ ⦃ks left⦄, g ks = some left →
    Takes moreExpressions (fun es => left.1 = true → AreSingle es) f ks left.2

theorem agreesMany_moreExpressions (hitem : Agrees starExpression f (Phrase.starExpression f))
    (hmore : AgreesMany f (Phrase.moreExpressions f)) :
    AgreesMany (f + 1) (Phrase.moreExpressions (f + 1)) := by
  intro ks left h
  refine .of_succ fun zs ts hts fuel hfuel => ?_
  have hstar : frontIs "*" ts = isAt .star ks := hts.frontIs_sign .star rfl
  rw [Phrase.moreExpressions] at h
  split_ifs at h with hatstar hstarts
  · obtain ⟨inner, hinner, h⟩ := Option.bind_eq_some_iff.mp h
    obtain ⟨e, us, hrun, hus, hlen, hfits⟩ := hitem hinner hts hfuel
    have hcomma : frontIs "," us = isAt .comma inner.2 := hus.frontIs_sign .comma rfl
    split_ifs at h with hat
    · obtain ⟨more, hmore', h⟩ := Option.bind_eq_some_iff.mp h
      cases h
      obtain ⟨htail, hless⟩ := hus.tail hat
      obtain ⟨es, vs, hrun', hvs, hlen', hes⟩ := hmore hmore' htail (by omega : _ ≤ fuel)
      refine ⟨e :: es, vs, ?_, hvs, by omega, fun hsingle => ?_⟩
      · simp [moreExpressions, hts.startsExpression_eq, hstarts, hrun, hcomma, hat, hrun']
      · obtain ⟨hfirst, hrest⟩ := Bool.and_eq_true_iff.mp hsingle
        exact List.forall_mem_cons.mpr ⟨hfits.2 hfirst, hes hrest⟩
    · cases h
      refine ⟨[e], us, ?_, hus, hlen,
        fun hsingle => List.forall_mem_singleton.mpr (hfits.2 hsingle)⟩
      simp [moreExpressions, hts.startsExpression_eq, hstarts, hrun, hcomma, hat]
  · cases h
    exact ⟨[], ts, by simp [moreExpressions, hts.startsExpression_eq, hstarts, hstar, hatstar], hts,
      Nat.le_refl _, fun _ => List.forall_mem_nil _⟩

/-- Expressions, to which something can be assigned if that is asked for. -/
theorem takes_starExpressions (hitem : Agrees starExpression f (Phrase.starExpression f))
    (hmore : AgreesMany f (Phrase.moreExpressions f)) {ks : List Kind} {left : Left}
    (h : Phrase.starExpressions (f + 1) ks = some left) :
    Takes starExpressions (fun e => left.1 = true → e.invalid? .assigning = none)
      (f + 1) ks left.2 := by
  refine .of_succ fun zs ts hts fuel hfuel => ?_
  obtain ⟨inner, hinner, h⟩ := Option.bind_eq_some_iff.mp h
  obtain ⟨e, us, hrun, hus, hlen, hfits⟩ := hitem hinner hts hfuel
  have hcomma : frontIs "," us = isAt .comma inner.2 := hus.frontIs_sign .comma rfl
  split_ifs at h with hat
  · obtain ⟨more, hmore', h⟩ := Option.bind_eq_some_iff.mp h
    cases h
    obtain ⟨htail, hless⟩ := hus.tail hat
    obtain ⟨es, vs, hrun', hvs, hlen', hes⟩ := hmore hmore' htail (by omega : _ ≤ fuel)
    refine ⟨.tuple (e :: es) e.line, vs, ?_, hvs, by omega, fun hsingle => ?_⟩
    · simp [starExpressions, hrun, hcomma, hat, hrun']
    · obtain ⟨hfirst, hrest⟩ := Bool.and_eq_true_iff.mp hsingle
      exact invalidItem?_of_areSingle
        (List.forall_mem_cons.mpr ⟨hfits.2 hfirst, hes hrest⟩) .assigning
  · cases h
    exact ⟨e, us, by simp [starExpressions, hrun, hcomma, hat], hus, hlen,
      fun hsingle => invalid?_of_isSingle (hfits.2 hsingle) .assigning⟩

/-- One expression with no comma behind it. -/
theorem takes_starExpressions_one (hitem : Agrees starExpression f (Phrase.starExpression f))
    {ks : List Kind} {left : Left}
    (h : Phrase.starExpression f ks = some left) (hcomma : isAt .comma left.2 = false) :
    Takes starExpressions (Expr.Fits left.1) (f + 1) ks left.2 := by
  refine .of_succ fun zs ts hts fuel hfuel => ?_
  obtain ⟨e, us, hrun, hus, hlen, hfits⟩ := hitem h hts hfuel
  have hcomma' : frontIs "," us = false := (hus.frontIs_sign .comma rfl).trans hcomma
  exact ⟨e, us, by simp [starExpressions, hrun, hcomma'], hus, hlen, hfits⟩

/-! ## All readers of expressions -/

/-- With fuel `f` the readers of kinds are followed by the readers of tokens. -/
structure Level (f : Nat) : Prop where
  expression : Agrees expression f (Phrase.expression f)
  conditional : AgreesBehind conditional f (Phrase.conditional f)
  disjunction : Agrees disjunction f (Phrase.disjunction f)
  inversion : Agrees inversion f (Phrase.inversion f)
  comparison : Agrees comparison f (Phrase.comparison f)
  arithmetic : Agrees arithmetic f (Phrase.arithmetic f)
  factor : Agrees factor f (Phrase.factor f)
  primary : Agrees primary f (Phrase.primary f)
  atom : Agrees atom f (Phrase.atom f)
  trailers : AgreesBehind trailers f (Phrase.trailers f)
  namedExpression : Agrees namedExpression f (Phrase.namedExpression f)
  starNamed : Agrees starNamed f (Phrase.starNamed f)
  group : ∀ line, Follows (group · line) Expr.IsBare f (Phrase.group f)
  elements : ∀ {closer : Sign}, closer.opens = false → ∀ first,
    Follows (elements · closer.text first) anything f (Phrase.elements f closer)
  listDisplay : ∀ line, Follows (listDisplay · line) Expr.IsBare f (Phrase.listDisplay f)
  comprehension : ∀ e : Expr, e.IsBare →
    Follows (comprehension · e) anything f (Phrase.comprehension f)
  clauses : Follows clauses anything f (Phrase.clauses f)
  conditions : Follows conditions anything f (Phrase.conditions f)
  target : Agrees target f (Phrase.target f)
  targets : Follows targets AreSingle f (Phrase.targets f)
  loopTargets : Follows loopTargets anything f (Phrase.loopTargets f)
  braces : ∀ line, Follows (braces · line) Expr.IsBare f (Phrase.braces f)
  pairValue : Follows pairValue anything f (Phrase.pairValue f)
  pairs : Follows pairs anything f (Phrase.pairs f)
  optional : Follows optional anything f (Phrase.optional f)
  bounds : Follows bounds anything f (Phrase.bounds f)
  slice : Follows slice anything f (Phrase.slice f)
  slices : Follows slices anything f (Phrase.slices f)
  arguments : ∀ (call : Bool) (a : Arguments),
    Follows (arguments · call a) anything f (Phrase.arguments f (a.keyword || a.unpacked))
  starExpression : Agrees starExpression f (Phrase.starExpression f)
  moreExpressions : AgreesMany f (Phrase.moreExpressions f)
  parameterType : Follows (parameterType · true false) anything f (Phrase.parameterType f)
  parameters : ∀ (valued : Bool) (p : Parameters), p.unpacked = false → p.defaulted = valued →
    Follows (parameters · true ")" p) anything f (Phrase.parameters f valued)

theorem level_zero : Level 0 := by
  constructor <;> exact fun _ _ => nofun

theorem level_succ (h : Level f) : Level (f + 1) where
  expression := agrees_expression h.disjunction h.conditional
  conditional := agrees_conditional h.disjunction h.expression
  disjunction := agrees_disjunction h.inversion h.disjunction
  inversion := agrees_inversion h.inversion h.comparison
  comparison := agrees_comparison h.arithmetic h.comparison
  arithmetic := agrees_arithmetic h.factor h.arithmetic
  factor := agrees_factor h.factor h.primary
  primary := agrees_primary h.atom h.trailers
  atom := agrees_atom h.group h.listDisplay h.braces
  trailers := agrees_trailers (fun a ha => ha ▸ h.arguments true a) h.slices h.trailers
  namedExpression := agrees_namedExpression h.expression
  starNamed := agrees_starNamed h.namedExpression
  group line := follows_group h.starNamed (h.elements rfl none) line
  elements hcloser first := follows_elements h.starNamed hcloser first (h.elements hcloser first)
  listDisplay line := follows_listDisplay h.starNamed (h.elements rfl) h.comprehension line
  comprehension _ he := follows_comprehension h.clauses he
  clauses := follows_clauses h.loopTargets h.disjunction h.conditions
  conditions := follows_conditions h.disjunction h.conditions
  target := agrees_target h.primary
  targets := follows_targets h.target h.targets
  loopTargets := follows_loopTargets h.targets
  braces line := follows_braces h.expression h.pairValue h.pairs line
  pairValue := follows_pairValue h.expression
  pairs := follows_pairs h.expression h.pairValue h.pairs
  optional := follows_optional h.expression
  bounds := follows_bounds h.optional
  slice := follows_slice h.expression h.bounds
  slices := follows_slices h.slice h.slices
  arguments call a := follows_arguments h.expression call (h.arguments call) a
  starExpression := agrees_starExpression h.expression
  moreExpressions := agreesMany_moreExpressions h.starExpression h.moreExpressions
  parameterType := follows_parameterType h.expression
  parameters _ _ hp hvalued :=
    follows_parameters h.expression h.parameterType h.parameters hp hvalued

/-- Readers of expressions read what the readers of kinds read. -/
theorem level : ∀ f, Level f
  | 0 => level_zero
  | f + 1 => level_succ (level f)

end FlowMachine.Module
