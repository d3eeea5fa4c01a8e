import FlowMachine.Proofs.Module.Arguments
import FlowMachine.Proofs.Module.Forms

/-!
# Reading plain lines

Assignments, imports and other statements without blocks are read to the end of their line.
-/
namespace FlowMachine.Module

variable {zs ts : List Token} {ks rest : List Kind} {f fuel : Nat}

theorem Spells.length_kinds (h : Spells zs ks ts) : ks.length + 1 ≤ ts.length := by
  induction h with
  | display hdata _ ih =>
    obtain ⟨s, -, line, level, us, rfl⟩ := hdata.front
    simp only [List.length_cons, List.length_append]
    omega
  | nil => simp
  | _ => simp only [List.length_cons]; omega

theorem takes_of_starExpressions {left : Left} (h : Phrase.starExpressions f ks = some left) :
    Takes starExpressions (fun e => left.1 = true → e.invalid? .assigning = none) f ks left.2 := by
  cases f with
  | zero => cases h
  | succ f => exact takes_starExpressions (level f).starExpression (level f).moreExpressions h

/-! ## Assignments -/

theorem value_eq (h : Spells zs ks ts) (fuel : Nat) :
    value fuel true ts = starExpressions fuel true ts := by
  have hyield : frontIs "yield" ts = false := h.frontIs_absent (by decide)
  simp [value, hyield]

theorem augmentedMarks_any (h : Spells zs ks ts) :
    augmentedMarks.any (frontIs · ts) = isAt .plusEquals ks := by
  have habsent {word : String} (hword : word ∈ absentWords) := h.frontIs_absent hword
  have hplus : frontIs "+=" ts = isAt .plusEquals ks := h.frontIs_sign .plusEquals rfl
  simp only [augmentedMarks, List.any_cons, List.any_nil, hplus, Bool.or_false,
    habsent (by decide : "-=" ∈ absentWords), habsent (by decide : "*=" ∈ absentWords),
    habsent (by decide : "/=" ∈ absentWords),
    habsent (by decide : "//=" ∈ absentWords), habsent (by decide : "%=" ∈ absentWords),
    habsent (by decide : "@=" ∈ absentWords),
    habsent (by decide : "**=" ∈ absentWords), habsent (by decide : "<<=" ∈ absentWords),
    habsent (by decide : ">>=" ∈ absentWords),
    habsent (by decide : "&=" ∈ absentWords), habsent (by decide : "|=" ∈ absentWords),
    habsent (by decide : "^=" ∈ absentWords)]

/-- The value behind an equals sign. -/
theorem takes_value {left : Left} (h : Phrase.starExpressions f ks = some left) :
    Takes value anything f ks left.2 := by
  intro zs ts hts fuel hfuel
  obtain ⟨e, us, hrun, hus, hlen, -⟩ := takes_of_starExpressions h hts hfuel
  exact ⟨e, us, (value_eq hts fuel).trans hrun, hus, hlen, trivial⟩

theorem takes_expressionStatement (h : Phrase.assignment f ks = some rest) :
    Takes expressionStatement anything (f + 1) ks rest := by
  intro zs ts hts fuel hfuel
  obtain ⟨first, hfirst, h⟩ := Option.bind_eq_some_iff.mp h
  have hyield : frontIs "yield" ts = false := hts.frontIs_absent (by decide)
  have hone (hcomma : isAt .comma first.2 = false) : ∃ e us, value fuel true ts = .ok (e, us) ∧
      Spells zs first.2 us ∧
      us.length ≤ ts.length ∧ e.Fits first.1 := by
    obtain ⟨e, us, hrun, hus, hlen, hfits⟩ :=
      takes_starExpressions_one (level f).starExpression hfirst hcomma hts hfuel
    exact ⟨e, us, (value_eq hts fuel).trans hrun, hus, hlen, hfits⟩
  by_cases hcolon : isAt .colon first.2 = true
  · rw [if_pos hcolon] at h
    by_cases hsingle : first.1 = true
    case neg => rw [if_neg hsingle] at h; cases h
    rw [if_pos hsingle] at h
    obtain ⟨type, htype, h⟩ := Option.bind_eq_some_iff.mp h
    obtain ⟨e, us, hrun, hus, hlen, hfits⟩ := hone (isAt_of_isAt hcolon (by decide))
    obtain ⟨htail, hless⟩ := hus.tail hcolon
    obtain ⟨_, vs, hrun', hvs, hlen', -⟩ := (level f).expression htype htail (by omega : _ ≤ fuel)
    have hcolon' : frontIs ":" us = true := (hus.frontIs_sign .colon rfl).trans hcolon
    have hequals : frontIs "=" vs = isAt .equals type.2 := hvs.frontIs_sign .equals rfl
    split_ifs at h with hat
    · obtain ⟨last, hlast, h⟩ := Option.bind_eq_some_iff.mp h
      cases h
      obtain ⟨htail', hless'⟩ := hvs.tail hat
      obtain ⟨_, ws, hrun'', hws, hlen'', -⟩ := takes_value hlast htail' (by omega : _ ≤ fuel)
      refine ⟨{ names := boundNames [e] }, ws, ?_, hws, by omega, trivial⟩
      simp [expressionStatement, hyield, hrun, hcolon', hfits.2 hsingle, hrun', hequals,
        hat, hrun'']
    · cases h
      refine ⟨{ names := boundNames [e] }, vs, ?_, hvs, by omega, trivial⟩
      simp [expressionStatement, hyield, hrun, hcolon', hfits.2 hsingle, hrun', hequals, hat]
  rw [if_neg hcolon] at h
  by_cases hplus : isAt .plusEquals first.2 = true
  · rw [if_pos hplus] at h
    split_ifs at h with hsingle
    obtain ⟨last, hlast, h⟩ := Option.bind_eq_some_iff.mp h
    cases h
    obtain ⟨e, us, hrun, hus, hlen, hfits⟩ := hone (isAt_of_isAt hplus (by decide))
    obtain ⟨htail, hless⟩ := hus.tail hplus
    obtain ⟨_, vs, hrun', hvs, hlen', -⟩ := takes_value hlast htail (by omega : _ ≤ fuel)
    have hcolon' : frontIs ":" us = false :=
      (hus.frontIs_sign .colon rfl).trans (by simpa using hcolon)
    have hany : augmentedMarks.any (frontIs · us) = true := (augmentedMarks_any hus).trans hplus
    refine ⟨{}, vs, ?_, hvs, by omega, trivial⟩
    simp [expressionStatement, hyield, hrun, hcolon', hany, hfits.2 hsingle, hrun',
      -List.any_eq_true]
  rw [if_neg hplus] at h
  obtain ⟨all, hall, h⟩ := Option.bind_eq_some_iff.mp h
  obtain ⟨e, us, hrun, hus, hlen, hassign⟩ :=
    takes_of_starExpressions hall hts (by omega : _ ≤ fuel)
  rw [← value_eq hts] at hrun
  have hcolon' : frontIs ":" us = isAt .colon all.2 := hus.frontIs_sign .colon rfl
  have hany : augmentedMarks.any (frontIs · us) = isAt .plusEquals all.2 := augmentedMarks_any hus
  have hequals : frontIs "=" us = isAt .equals all.2 := hus.frontIs_sign .equals rfl
  by_cases hat : isAt .equals all.2 = true
  · rw [if_pos hat] at h
    have hnocolon : isAt .colon all.2 = false := isAt_of_isAt hat (by decide)
    have hnoplus : isAt .plusEquals all.2 = false := isAt_of_isAt hat (by decide)
    split_ifs at h with hsingle
    obtain ⟨last, hlast, h⟩ := Option.bind_eq_some_iff.mp h
    split_ifs at h with hmore
    cases h
    obtain ⟨htail, hless⟩ := hus.tail hat
    obtain ⟨e', vs, hrun', hvs, hlen', -⟩ := takes_value hlast htail (by omega : _ ≤ fuel)
    have hyield' : frontIs "yield" us.tail = false := htail.frontIs_absent (by decide)
    have htake : take "=" true us = .ok ((), us.tail) := hus.run_take (s := .equals) rfl hat
    have hequals' : frontIs "=" vs = false :=
      (hvs.frontIs_sign .equals rfl).trans (by simpa using hmore)
    obtain ⟨n, rfl⟩ : ∃ n, fuel = n + 1 := ⟨fuel - 1, by omega⟩
    refine ⟨{ names := boundNames [e] }, vs, ?_, hvs, by omega, trivial⟩
    simp [expressionStatement, assignment, hyield, hrun, hcolon', hnocolon, hany, hnoplus, hequals,
      hat, hassign hsingle, htake, hyield', hrun', hequals', -List.any_eq_true]
  · rw [if_neg hat] at h
    split_ifs at h with hbad
    cases h
    obtain ⟨hnocolon, hnoplus⟩ : isAt .colon all.2 = false ∧ isAt .plusEquals all.2 = false := by
      simpa using hbad
    refine ⟨{}, us, ?_, hus, hlen, trivial⟩
    simp [expressionStatement, hyield, hrun, hcolon', hnocolon, hany, hnoplus, hequals, hat,
      -List.any_eq_true]

/-! ## Imports -/

theorem follows_dotted (h : Phrase.dotted ks = some rest) :
    Takes dottedName anything f ks rest := by
  intro zs ts hts fuel hfuel
  obtain ⟨fuel, rfl⟩ : ∃ n, fuel = n + 1 := ⟨fuel - 1, by have := hts.length_pos; omega⟩
  fun_induction Phrase.dotted ks generalizing ts fuel with
  | case1 ks ih =>
    obtain ⟨word, hword, htail, hless⟩ := hts.run_takeName rfl
    obtain ⟨htail', hless'⟩ := htail.tail (s := .dot) rfl
    obtain ⟨n, rfl⟩ : ∃ n, fuel = n + 1 := ⟨fuel - 1, by omega⟩
    obtain ⟨_, us, hrun, hus, hlen, -⟩ := ih h htail' n (by simp only [List.tail_cons] at *; omega)
    have hdot : frontIs "." ts.tail = true := htail.frontIs_sign .dot rfl
    exact ⟨(), us, by rw [dottedName]; simp [hword, hdot, hrun], hus, by omega, trivial⟩
  | case2 ks hnodot =>
    cases h
    obtain ⟨word, hword, htail, hless⟩ := hts.run_takeName rfl
    have hnodot' : isAt .dot rest = false := isAt_of_ne hnodot
    have hdot : frontIs "." ts.tail = false := (htail.frontIs_sign .dot rfl).trans hnodot'
    exact ⟨(), ts.tail, by simp [dottedName, hword, hdot], htail, by omega, trivial⟩
  | case3 => cases h

theorem isKind_of_names (h : Phrase.names ks = some rest) : Phrase.isKind .name ks = true := by
  unfold Phrase.names at h
  split at h
  · rfl
  · rfl
  · rfl
  · cases h

theorem frontBreak_of_isKind (h : Spells zs ks ts) (hname : Phrase.isKind .name ks = true) :
    frontBreak ts = false := by
  obtain ⟨_, rfl⟩ := eq_cons_of_isKind hname
  cases h
  rfl

/-- A comma that a closing parenthesis follows is not taken. -/
theorem follows_names (h : Phrase.names ks = some rest) :
    Takes (importedNames false) anything f ks rest := by
  intro zs ts hts fuel hfuel
  obtain ⟨fuel, rfl⟩ : ∃ n, fuel = n + 1 := ⟨fuel - 1, by have := hts.length_pos; omega⟩
  fun_induction Phrase.names ks generalizing ts fuel with
  | case1 ks =>
    cases h
    obtain ⟨word, hword, htail, hless⟩ := hts.run_takeName rfl
    obtain ⟨htail', hless'⟩ := htail.tail (s := .comma) rfl
    have has : frontIs "as" ts.tail = false := htail.frontIs_sign .as rfl
    have hcomma : frontIs "," ts.tail = true := htail.frontIs_sign .comma rfl
    have hclose : frontIs ")" ts.tail.tail = true := htail'.frontIs_sign .closeParen rfl
    exact ⟨(), ts.tail, by rw [importedNames]; simp [hword, has, hcomma, hclose], htail,
      by omega, trivial⟩
  | case2 ks _ ih =>
    have hname := isKind_of_names h
    obtain ⟨word, hword, htail, hless⟩ := hts.run_takeName rfl
    obtain ⟨htail', hless'⟩ := htail.tail (s := .comma) rfl
    simp only [List.tail_cons] at htail htail'
    obtain ⟨n, rfl⟩ : ∃ n, fuel = n + 1 := ⟨fuel - 1, by omega⟩
    obtain ⟨_, us, hrun, hus, hlen, -⟩ := ih h htail' n (by omega)
    have has : frontIs "as" ts.tail = false := htail.frontIs_sign .as rfl
    have hcomma : frontIs "," ts.tail = true := htail.frontIs_sign .comma rfl
    have hclose : frontIs ")" ts.tail.tail = false :=
      (htail'.frontIs_sign .closeParen rfl).trans (isAt_of_isKind hname)
    have hbreak : frontBreak ts.tail.tail = false := frontBreak_of_isKind htail' hname
    refine ⟨(), us, ?_, hus, by omega, trivial⟩
    rw [importedNames]
    simp [hword, has, hcomma, hclose, hbreak, hrun]
  | case3 => cases h
  | case4 ks _ hcomma hat =>
    cases h
    obtain ⟨word, hword, htail, hless⟩ := hts.run_takeName rfl
    have has : frontIs "as" ts.tail = false :=
      (htail.frontIs_sign .as rfl).trans (by simpa using hat)
    have hcomma : frontIs "," ts.tail = false :=
      (htail.frontIs_sign .comma rfl).trans (isAt_of_ne hcomma)
    refine ⟨(), ts.tail, ?_, htail, by omega, trivial⟩
    rw [importedNames]
    simp [hword, has, hcomma]
  | case5 => cases h

/-- What stands behind `from`. -/
theorem takes_importFrom
    (h : (do Phrase.imported (← Phrase.behind? .import (← Phrase.dotted ks))) = some rest) :
    Takes importFrom anything f ks rest := by
  intro zs ts hts fuel hfuel
  obtain ⟨mid, hmid, h⟩ := Option.bind_eq_some_iff.mp h
  obtain ⟨behind, hbehind, h⟩ := Option.bind_eq_some_iff.mp h
  obtain ⟨hat, rfl⟩ := Phrase.behind?_eq_some.mp hbehind
  obtain ⟨_, us, hrun, hus, hlen, -⟩ := follows_dotted hmid hts hfuel
  obtain ⟨htail, hless⟩ := hus.tail hat
  have hdots : dropDots ts = ts := by
    cases hts with
    | name => rfl
    | _ => cases hmid
  have hname : (frontIs "import" ts && decide (ts.length < ts.length)) = false := by simp
  have htake : take "import" true us = .ok ((), us.tail) := hus.run_take (s := .import) rfl hat
  have hstar : frontIs "*" us.tail = isAt .star mid.tail := htail.frontIs_sign .star rfl
  rw [Phrase.imported] at h
  by_cases hopen : isAt .openParen mid.tail = true
  · rw [if_pos hopen] at h
    obtain ⟨inner, hinner, h⟩ := Option.bind_eq_some_iff.mp h
    obtain ⟨hclose, rfl⟩ := Phrase.behind?_eq_some.mp h
    have hopen' : frontIs "(" us.tail = true :=
      (htail.frontIs_open .openParen (isKind_of_isAt hopen)).trans hopen
    have hnostar : isAt .star mid.tail = false := isAt_of_isAt hopen (by decide)
    obtain ⟨htail', hless'⟩ := htail.tail hopen
    obtain ⟨_, vs, hrun', hvs, hlen', -⟩ :=
      follows_names (f := f) hinner htail' (by omega : _ ≤ fuel)
    obtain ⟨hws, hlen''⟩ : Spells zs (Phrase.dropSign .comma inner)
        (if frontIs "," vs then vs.tail else vs) ∧
        (if frontIs "," vs then vs.tail else vs).length ≤ vs.length := by
      have hcomma : frontIs "," vs = isAt .comma inner := hvs.frontIs_sign .comma rfl
      rw [hcomma, Phrase.dropSign]
      split_ifs with hat'
      · obtain ⟨htail'', hless''⟩ := hvs.tail hat'
        exact ⟨htail'', by omega⟩
      · exact ⟨hvs, Nat.le_refl _⟩
    obtain ⟨hlast, hless''⟩ := hws.tail hclose
    have htake' := hws.run_take (s := .closeParen) rfl hclose
    refine ⟨(), _, ?_, hlast, by omega, trivial⟩
    simp [importFrom, hdots, hrun, htake, hstar, hnostar, hopen', hrun']
    exact htake'
  · rw [if_neg hopen] at h
    have hname' := isKind_of_names h
    have hopen' : frontIs "(" us.tail = false :=
      (htail.frontIs_open .openParen (isKind_of_isKind hname' (by decide))).trans
        (isAt_of_isKind hname')
    have hnostar : isAt .star mid.tail = false := isAt_of_isKind hname'
    obtain ⟨_, vs, hrun', hvs, hlen', -⟩ := follows_names (f := f) h htail (by omega : _ ≤ fuel)
    refine ⟨(), vs, ?_, hvs, by omega, trivial⟩
    simp [importFrom, hdots, hrun, htake, hstar, hnostar, hopen', hrun']

/-! ## Statements without a block -/

theorem passes_any (h : Spells zs ks ts) :
    ["pass", "break", "continue"].any (frontIs · ts) = (isAt .pass ks || isAt .continue ks) := by
  have hpass : frontIs "pass" ts = isAt .pass ks := h.frontIs_sign .pass rfl
  have hcontinue : frontIs "continue" ts = isAt .continue ks := h.frontIs_sign .continue rfl
  simp only [List.any_cons, List.any_nil, hpass, hcontinue,
    h.frontIs_absent (by decide : "break" ∈ absentWords), Bool.or_false, Bool.false_or]

theorem scopes_any (h : Spells zs ks ts) : ["global", "nonlocal"].any (frontIs · ts) = false := by
  simp only [List.any_cons, List.any_nil, h.frontIs_absent (by decide : "global" ∈ absentWords),
    h.frontIs_absent (by decide : "nonlocal" ∈ absentWords), Bool.or_false]

theorem takes_smallStatement (h : Phrase.small f ks = some rest) :
    Takes smallStatement anything (f + 1) ks rest := by
  intro zs ts hts fuel hfuel
  have hpass := passes_any hts
  have hreturn : frontIs "return" ts = isAt .return ks := hts.frontIs_sign .return rfl
  have hraise : frontIs "raise" ts = false := hts.frontIs_absent (by decide)
  have hscope := scopes_any hts
  have hdel : frontIs "del" ts = false := hts.frontIs_absent (by decide)
  have hassert : frontIs "assert" ts = isAt .assert ks := hts.frontIs_sign .assert rfl
  have himport : frontIs "import" ts = isAt .import ks := hts.frontIs_sign .import rfl
  have hfrom : frontIs "from" ts = isAt .from ks := hts.frontIs_sign .from rfl
  unfold Phrase.small at h
  split at h
  · next ks =>
    cases h
    obtain ⟨htail, hless⟩ := hts.tail (s := .pass) rfl
    exact ⟨{}, ts.tail, by simp [smallStatement, run_acceptAny, hpass, isAt, -List.any_cons], htail,
      by omega, trivial⟩
  · next ks =>
    cases h
    obtain ⟨htail, hless⟩ := hts.tail (s := .continue) rfl
    exact ⟨{}, ts.tail, by simp [smallStatement, hpass, isAt, -List.any_cons], htail,
      by omega, trivial⟩
  · next ks =>
    obtain ⟨htail, hless⟩ := hts.tail (s := .return) rfl
    simp only [List.tail_cons] at htail
    split_ifs at h with hatstar hstarts
    · obtain ⟨left, hleft, rfl⟩ := Option.map_eq_some_iff.mp h
      obtain ⟨e, us, hrun, hus, hlen, -⟩ :=
        takes_of_starExpressions hleft htail (by omega : _ ≤ fuel)
      refine ⟨{}, us, ?_, hus, by omega, trivial⟩
      simp [smallStatement, hpass, hreturn, isAt, htail.startsExpression_eq, hstarts, hrun,
        -List.any_cons]
    · cases h
      have hstar : frontIs "*" ts.tail = false :=
        (htail.frontIs_sign .star rfl).trans (by simpa using hatstar)
      refine ⟨{}, ts.tail, ?_, htail, by omega, trivial⟩
      simp [smallStatement, hpass, hreturn, isAt, htail.startsExpression_eq, hstarts, hstar,
        -List.any_cons]
  · next ks =>
    obtain ⟨inner, hinner, h⟩ := Option.bind_eq_some_iff.mp h
    split_ifs at h with hat
    cases h
    obtain ⟨htail, hless⟩ := hts.tail (s := .assert) rfl
    obtain ⟨e, us, hrun, hus, hlen, -⟩ := (level f).expression hinner htail (by omega : _ ≤ fuel)
    have hcomma : frontIs "," us = false := (hus.frontIs_sign .comma rfl).trans (by simpa using hat)
    refine ⟨{}, us, ?_, hus, by omega, trivial⟩
    simp [smallStatement, hpass, hreturn, hraise, hscope, hdel, hassert, isAt, hrun, hcomma,
      -List.any_cons]
  · next ks =>
    split_ifs at h with hempty
    cases h
    obtain rfl := List.isEmpty_iff.mp hempty
    obtain ⟨htail, hless⟩ := hts.tail (s := .import) rfl
    obtain ⟨n, rfl⟩ : ∃ n, fuel = n + 1 := ⟨fuel - 1, by omega⟩
    obtain ⟨_, us, hrun, hus, hlen, -⟩ := follows_dotted (f := f)
      (show Phrase.dotted [.name] = some [] from rfl) htail (by omega : _ ≤ n)
    have has : frontIs "as" us = false := hus.frontIs_sign .as rfl
    have hcomma : frontIs "," us = false := hus.frontIs_sign .comma rfl
    refine ⟨{}, us, ?_, hus, by omega, trivial⟩
    simp [smallStatement, hpass, hreturn, hraise, hscope, hdel, hassert, himport, isAt,
      importedNames, hrun, has, hcomma, -List.any_cons]
  · next ks =>
    obtain ⟨htail, hless⟩ := hts.tail (s := .from) rfl
    obtain ⟨_, us, hrun, hus, hlen, -⟩ := takes_importFrom (f := f) h htail (by omega : _ ≤ fuel)
    refine ⟨{}, us, ?_, hus, by omega, trivial⟩
    simp [smallStatement, hpass, hreturn, hraise, hscope, hdel, hassert, himport, hfrom, isAt, hrun,
      -List.any_cons]
  · obtain ⟨outline, us, hrun, hus, hlen, -⟩ := takes_expressionStatement h hts hfuel
    refine ⟨outline, us, ?_, hus, by omega, trivial⟩
    simp [smallStatement, hpass, hreturn, hraise, hscope, hdel, hassert, himport, hfrom, isAt, hrun,
      -List.any_cons]
  · obtain ⟨outline, us, hrun, hus, hlen, -⟩ := takes_expressionStatement h hts hfuel
    refine ⟨outline, us, ?_, hus, by omega, trivial⟩
    simp [smallStatement, hpass, hreturn, hraise, hscope, hdel, hassert, himport, hfrom, isAt, hrun,
      -List.any_cons]
  · cases h

end FlowMachine.Module
