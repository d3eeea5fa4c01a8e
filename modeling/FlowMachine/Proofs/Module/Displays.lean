import FlowMachine.Proofs.Module.Expressions

/-!
# Reading brackets

Readers of groups, lists, comprehensions, braces and slices agree with the readers of kinds beside
them, if the readers that they call do with less fuel.
-/
namespace FlowMachine.Module

variable {f : Nat}

/-! ## Brackets -/

theorem agrees_namedExpression (hexpr : Agrees expression f (Phrase.expression f)) :
    Agrees namedExpression (f + 1) (Phrase.namedExpression (f + 1)) := by
  intro ks left h
  obtain ⟨inner, hinner, h⟩ := Option.bind_eq_some_iff.mp h
  split_ifs at h with hequals
  cases h
  refine .of_succ fun zs ts hts fuel hfuel => ?_
  obtain ⟨e, us, hrun, hus, hlen, hfits⟩ := hexpr hinner hts hfuel
  have hwalrus : frontPair ":=" ts = false := hts.frontPair_absent (by decide)
  have hpos : 0 < fuel := by have := hts.length_pos; omega
  have hmark := misusedMark_of_not_equals hus (by simpa using hequals) hpos ts e
  exact ⟨e, us, by simp [namedExpression, hwalrus, hrun, hmark], hus, hlen, hfits⟩

theorem agrees_starNamed (hnamed : Agrees namedExpression f (Phrase.namedExpression f)) :
    Agrees starNamed (f + 1) (Phrase.starNamed (f + 1)) := by
  intro ks left h
  rw [Phrase.starNamed] at h
  split_ifs at h with hstar
  refine .of_succ fun zs ts hts fuel hfuel => ?_
  obtain ⟨e, us, hrun, hus, hlen, hfits⟩ := hnamed h hts hfuel
  have hstar' : frontIs "*" ts = isAt .star ks := hts.frontIs_sign .star rfl
  exact ⟨e, us, by simp [starNamed, hstar', hstar, hrun], hus, hlen, hfits⟩

theorem follows_elements (hitem : Agrees starNamed f (Phrase.starNamed f)) {closer : Sign}
    (hcloser : closer.opens = false)
    (first : Option Nat)
    (hmore : Follows (elements · closer.text first) anything f (Phrase.elements f closer)) :
    Follows (elements · closer.text first) anything (f + 1) (Phrase.elements (f + 1) closer) := by
  intro ks rest h
  refine .of_succ fun zs ts hts fuel hfuel => ?_
  have hclose : frontIs closer.text ts = isAt closer ks := hts.frontIs_sign closer hcloser
  rw [Phrase.elements] at h
  split_ifs at h with hat hfor
  · cases h
    obtain ⟨htail, hless⟩ := hts.tail hat
    exact ⟨[], _, by simp [elements, hclose, hat], htail, by omega, trivial⟩
  · obtain ⟨item, hitem', h⟩ := Option.bind_eq_some_iff.mp h
    obtain ⟨e, us, hrun, hus, hlen, -⟩ := hitem hitem' hts hfuel
    have hcomma : frontIs "," us = isAt .comma item.2 := hus.frontIs_sign .comma rfl
    split_ifs at h with hat' hfor'
    · obtain ⟨htail, hless⟩ := hus.tail hat'
      obtain ⟨es, vs, hrun', hvs, hlen', -⟩ := hmore h htail (by omega : _ ≤ fuel)
      refine ⟨e :: es, vs, ?_, hvs, by omega, trivial⟩
      simp [elements, hclose, hat, hts.startsClause_eq, hfor, hrun, hcomma, hat', hrun']
    · obtain ⟨hat'', rfl⟩ := Phrase.behind?_eq_some.mp h
      obtain ⟨htail, hless⟩ := hus.tail hat''
      refine ⟨[e], _, ?_, htail, by omega, trivial⟩
      simp [elements, hclose, hat, hts.startsClause_eq, hfor, hrun, hcomma, hat',
        hus.startsClause_eq, hfor', hus.run_take hcloser hat'']

theorem isBare_grouped {e : Expr} (h : e.IsBare) : e.grouped.IsBare := by
  cases e <;> trivial

theorem follows_group (hitem : Agrees starNamed f (Phrase.starNamed f))
    (hmore : Follows (elements · Sign.closeParen.text none) anything f
    (Phrase.elements f .closeParen)) (line : Nat) :
    Follows (group · line) Expr.IsBare (f + 1) (Phrase.group (f + 1)) := by
  intro ks rest h
  refine .of_succ fun zs ts hts fuel hfuel => ?_
  have hclose : frontIs ")" ts = isAt .closeParen ks := hts.frontIs_sign .closeParen rfl
  have hyield : frontIs "yield" ts = false := hts.frontIs_absent (by decide)
  have hstars : frontIs "**" ts = isAt .doubleStar ks := hts.frontIs_sign .doubleStar rfl
  rw [Phrase.group] at h
  split_ifs at h with hat hdouble
  · cases h
    obtain ⟨htail, hless⟩ := hts.tail hat
    exact ⟨.tuple [] line, _, by simp [group, hclose, hat], htail, by omega, trivial⟩
  · obtain ⟨item, hitem', h⟩ := Option.bind_eq_some_iff.mp h
    obtain ⟨e, us, hrun, hus, hlen, hfits⟩ := hitem hitem' hts hfuel
    have hcomma : frontIs "," us = isAt .comma item.2 := hus.frontIs_sign .comma rfl
    split_ifs at h with hat' hfor'
    · obtain ⟨htail, hless⟩ := hus.tail hat'
      obtain ⟨es, vs, hrun', hvs, hlen', -⟩ := hmore h htail (by omega : _ ≤ fuel)
      refine ⟨.tuple (e :: es) line, vs, ?_, hvs, by omega, trivial⟩
      simp only [Sign.text] at hrun'
      simp [group, hclose, hat, hyield, hstars, hdouble, hrun, hcomma, hat', hrun']
    · obtain ⟨hat'', rfl⟩ := Phrase.behind?_eq_some.mp h
      obtain ⟨htail, hless⟩ := hus.tail hat''
      have htake : take ")" true us = .ok ((), us.tail) := hus.run_take (s := .closeParen) rfl hat''
      refine ⟨e.grouped, us.tail, ?_, htail, by omega, isBare_grouped hfits.1⟩
      cases e with
      | starred => exact hfits.1.elim
      | _ => simp [group, hclose, hat, hyield, hstars, hdouble, hrun, hcomma, hat',
        hus.startsClause_eq, hfor', htake]

theorem follows_listDisplay (hitem : Agrees starNamed f (Phrase.starNamed f))
    (hmore : ∀ first, Follows (elements · Sign.closeBracket.text first) anything f
    (Phrase.elements f .closeBracket))
    (hclauses : ∀ e : Expr, e.IsBare →
    Follows (comprehension · e) anything f (Phrase.comprehension f)) (line : Nat) :
    Follows (listDisplay · line) Expr.IsBare (f + 1) (Phrase.listDisplay (f + 1)) := by
  intro ks rest h
  refine .of_succ fun zs ts hts fuel hfuel => ?_
  have hclose : frontIs "]" ts = isAt .closeBracket ks := hts.frontIs_sign .closeBracket rfl
  rw [Phrase.listDisplay] at h
  split_ifs at h with hat
  · cases h
    obtain ⟨htail, hless⟩ := hts.tail hat
    exact ⟨.list [] line, _, by simp [listDisplay, hclose, hat], htail, by omega, trivial⟩
  · obtain ⟨item, hitem', h⟩ := Option.bind_eq_some_iff.mp h
    obtain ⟨e, us, hrun, hus, hlen, hfits⟩ := hitem hitem' hts hfuel
    have hcomma : frontIs "," us = isAt .comma item.2 := hus.frontIs_sign .comma rfl
    split_ifs at h with hat' hfor
    · obtain ⟨htail, hless⟩ := hus.tail hat'
      obtain ⟨es, vs, hrun', hvs, hlen', -⟩ := hmore (some e.line) h htail (by omega : _ ≤ fuel)
      refine ⟨.list (e :: es) line, vs, ?_, hvs, by omega, trivial⟩
      simp only [Sign.text] at hrun'
      simp [listDisplay, hclose, hat, hrun, hcomma, hat', hrun']
    · obtain ⟨mid, hmid, h⟩ := Option.bind_eq_some_iff.mp h
      obtain ⟨hat'', rfl⟩ := Phrase.behind?_eq_some.mp h
      obtain ⟨_, vs, hrun', hvs, hlen', -⟩ := hclauses e hfits.1 hmid hus (by omega : _ ≤ fuel)
      obtain ⟨htail, hless⟩ := hvs.tail hat''
      have htake : take "]" true vs = .ok ((), vs.tail) :=
        hvs.run_take (s := .closeBracket) rfl hat''
      refine ⟨.other "list comprehension" true line, vs.tail, ?_, htail, by omega, trivial⟩
      simp [listDisplay, hclose, hat, hrun, hcomma, hat', hus.startsClause_eq, hfor, hrun', htake]
    · obtain ⟨hat'', rfl⟩ := Phrase.behind?_eq_some.mp h
      obtain ⟨htail, hless⟩ := hus.tail hat''
      have htake : take "]" true us = .ok ((), us.tail) :=
        hus.run_take (s := .closeBracket) rfl hat''
      refine ⟨.list [e] line, us.tail, ?_, htail, by omega, trivial⟩
      simp [listDisplay, hclose, hat, hrun, hcomma, hat', hus.startsClause_eq, hfor, htake]

/-! ## Comprehensions -/

theorem follows_comprehension (hclauses : Follows clauses anything f (Phrase.clauses f)) {e : Expr}
    (he : e.IsBare) :
    Follows (comprehension · e) anything (f + 1) (Phrase.comprehension (f + 1)) := by
  intro ks rest h
  refine .of_succ fun zs ts hts fuel hfuel => ?_
  obtain ⟨_, us, hrun, hus, hlen, -⟩ := hclauses h hts hfuel
  refine ⟨(), us, ?_, hus, hlen, trivial⟩
  cases e with
  | starred => exact he.elim
  | _ => simp [comprehension, hrun]

theorem follows_clauses (htargets : Follows loopTargets anything f (Phrase.loopTargets f))
    (hdisj : Agrees disjunction f (Phrase.disjunction f))
    (hconditions : Follows conditions anything f (Phrase.conditions f)) :
    Follows clauses anything (f + 1) (Phrase.clauses (f + 1)) := by
  intro ks rest h
  obtain ⟨behindFor, hfor, h⟩ := Option.bind_eq_some_iff.mp h
  obtain ⟨hat, rfl⟩ := Phrase.behind?_eq_some.mp hfor
  obtain ⟨mid, hmid, h⟩ := Option.bind_eq_some_iff.mp h
  obtain ⟨behindIn, hin, h⟩ := Option.bind_eq_some_iff.mp h
  obtain ⟨hat', rfl⟩ := Phrase.behind?_eq_some.mp hin
  obtain ⟨inner, hinner, h⟩ := Option.bind_eq_some_iff.mp h
  obtain ⟨last, hlast, h⟩ := Option.bind_eq_some_iff.mp h
  split_ifs at h with hmore
  cases h
  refine .of_succ fun zs ts hts fuel hfuel => ?_
  obtain ⟨htail, hless⟩ := hts.tail hat
  obtain ⟨_, us, hrun, hus, hlen, -⟩ := htargets hmid htail (by omega : _ ≤ fuel)
  obtain ⟨htail', hless'⟩ := hus.tail hat'
  obtain ⟨e, vs, hrun', hvs, hlen', -⟩ := hdisj hinner htail' (by omega : _ ≤ fuel)
  obtain ⟨_, ws, hrun'', hws, hlen'', -⟩ := hconditions hlast hvs (by omega : _ ≤ fuel)
  refine ⟨(), ws, ?_, hws, by omega, trivial⟩
  have hasync : frontIs "async" ts = false := hts.frontIs_absent (by decide)
  have hfor : take "for" true ts = .ok ((), ts.tail) := hts.run_take (s := .for) rfl hat
  have hin : take "in" true us = .ok ((), us.tail) := hus.run_take (s := .in) rfl hat'
  simp [clauses, hasync, hfor, hrun, hin, hrun', hrun'', hws.startsClause_eq, hmore]

theorem follows_conditions (hdisj : Agrees disjunction f (Phrase.disjunction f))
    (hmore : Follows conditions anything f (Phrase.conditions f)) :
    Follows conditions anything (f + 1) (Phrase.conditions (f + 1)) := by
  intro ks rest h
  refine .of_succ fun zs ts hts fuel hfuel => ?_
  have hif : frontIs "if" ts = isAt .if ks := hts.frontIs_sign .if rfl
  rw [Phrase.conditions] at h
  split_ifs at h with hat
  · obtain ⟨inner, hinner, h⟩ := Option.bind_eq_some_iff.mp h
    obtain ⟨htail, hless⟩ := hts.tail hat
    obtain ⟨e, us, hrun, hus, hlen, -⟩ := hdisj hinner htail (by omega : _ ≤ fuel)
    obtain ⟨_, vs, hrun', hvs, hlen', -⟩ := hmore h hus (by omega : _ ≤ fuel)
    exact ⟨(), vs, by simp [conditions, hif, hat, hrun, hrun'], hvs, by omega, trivial⟩
  · cases h
    exact ⟨(), ts, by simp [conditions, hif, hat], hts, Nat.le_refl _, trivial⟩

theorem agrees_target (hprimary : Agrees primary f (Phrase.primary f)) :
    Agrees target (f + 1) (Phrase.target (f + 1)) := by
  intro ks left h
  rw [Phrase.target] at h
  split_ifs at h with hstar
  refine .of_succ fun zs ts hts fuel hfuel => ?_
  obtain ⟨e, us, hrun, hus, hlen, hfits⟩ := hprimary h hts hfuel
  have hstar' : frontIs "*" ts = isAt .star ks := hts.frontIs_sign .star rfl
  exact ⟨e, us, by simp [target, hstar', hstar, hrun], hus, hlen, hfits⟩

/-- All of the expressions are names or parts of objects. -/
def AreSingle (es : List Expr) : Prop := ∀ e ∈ es, e.isSingle = true

theorem invalid?_of_isSingle {e : Expr} (h : e.isSingle = true) (use : Expr.Use) :
    e.invalid? use = none := by
  cases e <;> first | rfl | cases h

theorem invalidItem?_of_areSingle {es : List Expr} (h : AreSingle es) (use : Expr.Use) :
    Expr.invalidItem? use es = none := by
  induction es with
  | nil => rfl
  | cons e es ih =>
    rw [Expr.invalidItem?, invalid?_of_isSingle (h e List.mem_cons_self)]
    exact ih fun e' he' => h e' (List.mem_cons_of_mem e he')

theorem follows_targets (htarget : Agrees target f (Phrase.target f))
    (hmore : Follows targets AreSingle f (Phrase.targets f)) :
    Follows targets AreSingle (f + 1) (Phrase.targets (f + 1)) := by
  intro ks rest h
  obtain ⟨inner, hinner, h⟩ := Option.bind_eq_some_iff.mp h
  refine .of_succ fun zs ts hts fuel hfuel => ?_
  obtain ⟨e, us, hrun, hus, hlen, hfits⟩ := htarget hinner hts hfuel
  have hcomma : frontIs "," us = isAt .comma inner.2 := hus.frontIs_sign .comma rfl
  split_ifs at h with hsingle hat hstarts
  · obtain ⟨htail, hless⟩ := hus.tail hat
    obtain ⟨es, vs, hrun', hvs, hlen', hes⟩ := hmore h htail (by omega : _ ≤ fuel)
    have he : e.isSingle = true := hfits.2 (by simpa using hsingle)
    refine ⟨e :: es, vs, ?_, hvs, by omega, ?_⟩
    · simp [targets, hrun, hcomma, hat, htail.startsExpression_eq, hstarts, hrun']
    · intro e' he'
      rcases List.mem_cons.mp he' with rfl | he'
      · exact he
      · exact hes e' he'
  · cases h
    have he : e.isSingle = true := hfits.2 (by simpa using hsingle)
    refine ⟨[e], us, by simp [targets, hrun, hcomma, hat], hus, hlen, ?_⟩
    intro e' he'
    obtain rfl := List.mem_singleton.mp he'
    exact he

theorem follows_loopTargets (htargets : Follows targets AreSingle f (Phrase.targets f)) :
    Follows loopTargets anything (f + 1) (Phrase.loopTargets (f + 1)) := by
  intro ks rest h
  obtain ⟨mid, hmid, h⟩ := Option.bind_eq_some_iff.mp h
  split_ifs at h with hat
  cases h
  refine .of_succ fun zs ts hts fuel hfuel => ?_
  obtain ⟨es, us, hrun, hus, hlen, hes⟩ := htargets hmid hts hfuel
  have hin : frontIs "in" us = true := (hus.frontIs_sign .in rfl).trans hat
  refine ⟨(), us, ?_, hus, hlen, trivial⟩
  have hattempt : attempt (targets fuel) true ts = .ok (.ok (es, us), ts) := by simp [attempt, hrun]
  simp [loopTargets, hattempt, hin, invalidItem?_of_areSingle hes]

/-! ## Sets, mappings and subscripts -/

theorem follows_pairValue (hexpr : Agrees expression f (Phrase.expression f)) :
    Follows pairValue anything (f + 1) (Phrase.pairValue (f + 1)) := by
  intro ks rest h
  obtain ⟨behind, hbehind, h⟩ := Option.bind_eq_some_iff.mp h
  obtain ⟨hat, rfl⟩ := Phrase.behind?_eq_some.mp hbehind
  split_ifs at h with hbad
  obtain ⟨inner, hinner, h⟩ := Option.bind_eq_some_iff.mp h
  cases h
  refine .of_succ fun zs ts hts fuel hfuel => ?_
  obtain ⟨htail, hless⟩ := hts.tail hat
  obtain ⟨e, us, hrun, hus, hlen, -⟩ := hexpr hinner htail (by omega : _ ≤ fuel)
  refine ⟨(), us, ?_, hus, by omega, trivial⟩
  obtain ⟨⟨hclose, hcomma⟩, hstar⟩ :
      (isAt .closeBrace ks.tail = false ∧ isAt .comma ks.tail = false) ∧
      isAt .star ks.tail = false := by simpa using hbad
  have hclose' : frontIs "\x7d" ts.tail = false := (htail.frontIs_sign .closeBrace rfl).trans hclose
  have hcomma' : frontIs "," ts.tail = false := (htail.frontIs_sign .comma rfl).trans hcomma
  have hstar' : frontIs "*" ts.tail = false := (htail.frontIs_sign .star rfl).trans hstar
  have hcolon : take ":" true ts = .ok ((), ts.tail) := hts.run_take (s := .colon) rfl hat
  simp [pairValue, hcolon, hclose', hcomma', hstar', hrun]

theorem follows_pairs (hexpr : Agrees expression f (Phrase.expression f))
    (hvalue : Follows pairValue anything f (Phrase.pairValue f))
    (hmore : Follows pairs anything f (Phrase.pairs f)) :
    Follows pairs anything (f + 1) (Phrase.pairs (f + 1)) := by
  intro ks rest h
  refine .of_succ fun zs ts hts fuel hfuel => ?_
  have hcomma : frontIs "," ts = isAt .comma ks := hts.frontIs_sign .comma rfl
  rw [Phrase.pairs] at h
  split_ifs at h with hat hclose hdouble
  · cases h
    obtain ⟨htail, hless⟩ := hts.tail hat
    obtain ⟨htail', hless'⟩ := htail.tail hclose
    have hclose' : frontIs "\x7d" ts.tail = true :=
      (htail.frontIs_sign .closeBrace rfl).trans hclose
    exact ⟨(), _, by simp [pairs, hcomma, hat, hclose'], htail', by omega, trivial⟩
  · obtain ⟨htail, hless⟩ := hts.tail hat
    obtain ⟨key, hkey, h⟩ := Option.bind_eq_some_iff.mp h
    split_ifs at h with hcolon
    obtain ⟨mid, hmid, h⟩ := Option.bind_eq_some_iff.mp h
    obtain ⟨e, us, hrun, hus, hlen, -⟩ := hexpr hkey htail (by omega : _ ≤ fuel)
    obtain ⟨_, vs, hrun', hvs, hlen', -⟩ := hvalue hmid hus (by omega : _ ≤ fuel)
    obtain ⟨_, ws, hrun'', hws, hlen'', -⟩ := hmore h hvs (by omega : _ ≤ fuel)
    refine ⟨(), ws, ?_, hws, by omega, trivial⟩
    have hclose' : frontIs "\x7d" ts.tail = isAt .closeBrace ks.tail :=
      htail.frontIs_sign .closeBrace rfl
    have hdouble' : frontIs "**" ts.tail = isAt .doubleStar ks.tail :=
      htail.frontIs_sign .doubleStar rfl
    have hcolon' : frontIs ":" us = true := (hus.frontIs_sign .colon rfl).trans hcolon
    simp [pairs, hcomma, hat, hclose', hclose, hdouble', hdouble, hrun, hcolon', hrun', hrun'']
  · obtain ⟨hat', rfl⟩ := Phrase.behind?_eq_some.mp h
    obtain ⟨htail, hless⟩ := hts.tail hat'
    have htake : take "\x7d" true ts = .ok ((), ts.tail) := hts.run_take (s := .closeBrace) rfl hat'
    exact ⟨(), _, by simp [pairs, hcomma, hat, htake], htail, by omega, trivial⟩

theorem follows_braces (hexpr : Agrees expression f (Phrase.expression f))
    (hvalue : Follows pairValue anything f (Phrase.pairValue f))
    (hmore : Follows pairs anything f (Phrase.pairs f))
    (line : Nat) : Follows (braces · line) Expr.IsBare (f + 1) (Phrase.braces (f + 1)) := by
  intro ks rest h
  refine .of_succ fun zs ts hts fuel hfuel => ?_
  have hclose : frontIs "\x7d" ts = isAt .closeBrace ks := hts.frontIs_sign .closeBrace rfl
  rw [Phrase.braces] at h
  split_ifs at h with hat hstars
  · cases h
    obtain ⟨htail, hless⟩ := hts.tail hat
    exact ⟨.other "dict literal" true line, _, by simp [braces, hclose, hat], htail,
      by omega, trivial⟩
  · obtain ⟨hnodouble, hnostar⟩ : isAt .doubleStar ks = false ∧ isAt .star ks = false := by
      simpa using hstars
    have hdouble : frontIs "**" ts = false := (hts.frontIs_sign .doubleStar rfl).trans hnodouble
    have hstar : frontIs "*" ts = false := (hts.frontIs_sign .star rfl).trans hnostar
    have hwalrus : frontPair ":=" ts = false := hts.frontPair_absent (by decide)
    obtain ⟨item, hitem, h⟩ := Option.bind_eq_some_iff.mp h
    obtain ⟨e, us, hrun, hus, hlen, hfits⟩ := hexpr hitem hts hfuel
    have hcolon : frontIs ":" us = isAt .colon item.2 := hus.frontIs_sign .colon rfl
    split_ifs at h with hat' hmarks
    · obtain ⟨mid, hmid, h⟩ := Option.bind_eq_some_iff.mp h
      split_ifs at h with hfor
      obtain ⟨_, vs, hrun', hvs, hlen', -⟩ := hvalue hmid hus (by omega : _ ≤ fuel)
      obtain ⟨_, ws, hrun'', hws, hlen'', -⟩ := hmore h hvs (by omega : _ ≤ fuel)
      refine ⟨.other "dict literal" true line, ws, ?_, hws, by omega, trivial⟩
      simp [braces, hclose, hat, hdouble, hstar, hwalrus, hrun, hcolon, hat', hrun',
        hvs.startsClause_eq, hfor, hrun'']
    · obtain ⟨⟨hnoequals, hnofor⟩, hnocomma⟩ :
          (isAt .equals item.2 = false ∧ isAt .for item.2 = false) ∧
          isAt .comma item.2 = false := by simpa using hmarks
      obtain ⟨hat'', rfl⟩ := Phrase.behind?_eq_some.mp h
      obtain ⟨htail, hless⟩ := hus.tail hat''
      have hcomma : frontIs "," us = false := (hus.frontIs_sign .comma rfl).trans hnocomma
      have htake : take "\x7d" true us = .ok ((), us.tail) :=
        hus.run_take (s := .closeBrace) rfl hat''
      have hpos : 0 < fuel := by have := hts.length_pos; omega
      have hmark := misusedMark_of_not_equals hus hnoequals hpos ts e
      refine ⟨.other "set display" true line, us.tail, ?_, htail, by omega, trivial⟩
      simp [braces, hclose, hat, hdouble, hstar, hwalrus, hrun, hcolon, hat', hmark,
        hus.startsClause_eq, hnofor, hcomma, htake]

theorem follows_optional (hexpr : Agrees expression f (Phrase.expression f)) :
    Follows optional anything (f + 1) (Phrase.optional (f + 1)) := by
  intro ks rest h
  refine .of_succ fun zs ts hts fuel hfuel => ?_
  rw [Phrase.optional] at h
  split_ifs at h with hstarts
  · obtain ⟨inner, hinner, h⟩ := Option.bind_eq_some_iff.mp h
    cases h
    obtain ⟨e, us, hrun, hus, hlen, -⟩ := hexpr hinner hts hfuel
    exact ⟨(), us, by simp [optional, hts.startsExpression_eq, hstarts, hrun], hus, hlen, trivial⟩
  · cases h
    exact ⟨(), ts, by simp [optional, hts.startsExpression_eq, hstarts], hts,
      Nat.le_refl _, trivial⟩

theorem follows_bounds (hoptional : Follows optional anything f (Phrase.optional f)) :
    Follows bounds anything (f + 1) (Phrase.bounds (f + 1)) := by
  intro ks rest h
  obtain ⟨behind, hbehind, h⟩ := Option.bind_eq_some_iff.mp h
  obtain ⟨hat, rfl⟩ := Phrase.behind?_eq_some.mp hbehind
  obtain ⟨mid, hmid, h⟩ := Option.bind_eq_some_iff.mp h
  split_ifs at h with hmore
  cases h
  refine .of_succ fun zs ts hts fuel hfuel => ?_
  obtain ⟨htail, hless⟩ := hts.tail hat
  obtain ⟨_, us, hrun, hus, hlen, -⟩ := hoptional hmid htail (by omega : _ ≤ fuel)
  have hcolon : take ":" true ts = .ok ((), ts.tail) := hts.run_take (s := .colon) rfl hat
  have hnomore : frontIs ":" us = isAt .colon rest := hus.frontIs_sign .colon rfl
  exact ⟨(), us, by simp [bounds, hcolon, hrun, hnomore, hmore], hus, by omega, trivial⟩

theorem follows_slice (hexpr : Agrees expression f (Phrase.expression f))
    (hbounds : Follows bounds anything f (Phrase.bounds f)) :
    Follows slice anything (f + 1) (Phrase.slice (f + 1)) := by
  intro ks rest h
  refine .of_succ fun zs ts hts fuel hfuel => ?_
  have hwalrus : frontPair ":=" ts = false := hts.frontPair_absent (by decide)
  have hcolon : frontIs ":" ts = isAt .colon ks := hts.frontIs_sign .colon rfl
  rw [Phrase.slice] at h
  split_ifs at h with hat
  · obtain ⟨_, us, hrun, hus, hlen, -⟩ := hbounds h hts hfuel
    exact ⟨(), us, by simp [slice, hwalrus, hcolon, hat, hrun], hus, hlen, trivial⟩
  · obtain ⟨inner, hinner, h⟩ := Option.bind_eq_some_iff.mp h
    obtain ⟨e, us, hrun, hus, hlen, -⟩ := hexpr hinner hts hfuel
    have hcolon' : frontIs ":" us = isAt .colon inner.2 := hus.frontIs_sign .colon rfl
    split_ifs at h with hat' hequals
    · obtain ⟨_, vs, hrun', hvs, hlen', -⟩ := hbounds h hus (by omega : _ ≤ fuel)
      exact ⟨(), vs, by simp [slice, hwalrus, hcolon, hat, hrun, hcolon', hat', hrun'], hvs,
        by omega, trivial⟩
    · cases h
      have hpos : 0 < fuel := by have := hts.length_pos; omega
      have hmark := misusedMark_of_not_equals hus (by simpa using hequals) hpos ts e
      exact ⟨(), us, by simp [slice, hwalrus, hcolon, hat, hrun, hcolon', hat', hmark], hus,
        hlen, trivial⟩

theorem follows_slices (hslice : Follows slice anything f (Phrase.slice f))
    (hmore : Follows slices anything f (Phrase.slices f)) :
    Follows slices anything (f + 1) (Phrase.slices (f + 1)) := by
  intro ks rest h
  refine .of_succ fun zs ts hts fuel hfuel => ?_
  have hstar : frontIs "*" ts = isAt .star ks := hts.frontIs_sign .star rfl
  rw [Phrase.slices] at h
  split_ifs at h with hat
  obtain ⟨mid, hmid, h⟩ := Option.bind_eq_some_iff.mp h
  obtain ⟨_, us, hrun, hus, hlen, -⟩ := hslice hmid hts hfuel
  have hcomma : frontIs "," us = isAt .comma mid := hus.frontIs_sign .comma rfl
  split_ifs at h with hat' hclose
  · cases h
    obtain ⟨htail, hless⟩ := hus.tail hat'
    obtain ⟨htail', hless'⟩ := htail.tail hclose
    have hclose' : frontIs "]" us.tail = true := (htail.frontIs_sign .closeBracket rfl).trans hclose
    exact ⟨(), _, by simp [slices, hstar, hat, hrun, hcomma, hat', hclose'], htail',
      by omega, trivial⟩
  · obtain ⟨htail, hless⟩ := hus.tail hat'
    have hclose' : frontIs "]" us.tail = isAt .closeBracket mid.tail :=
      htail.frontIs_sign .closeBracket rfl
    obtain ⟨_, vs, hrun', hvs, hlen', -⟩ := hmore h htail (by omega : _ ≤ fuel)
    exact ⟨(), vs, by simp [slices, hstar, hat, hrun, hcomma, hat', hclose', hclose, hrun'], hvs,
      by omega, trivial⟩
  · obtain ⟨hat'', rfl⟩ := Phrase.behind?_eq_some.mp h
    obtain ⟨htail, hless⟩ := hus.tail hat''
    have htake : take "]" true us = .ok ((), us.tail) := hus.run_take (s := .closeBracket) rfl hat''
    exact ⟨(), _, by simp [slices, hstar, hat, hrun, hcomma, hat', htake], htail, by omega, trivial⟩

end FlowMachine.Module
