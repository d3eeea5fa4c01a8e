import FlowMachine.Proofs.Module.Lines

/-!
# Reading heads of blocks

The head of a block is read with its colon, and what its reader does behind the block depends on the
slot that the head leads to: branches may follow a condition, handlers an attempt.
-/
namespace FlowMachine.Module

variable {zs ts : List Token} {ks rest : List Kind} {f fuel : Nat}

theorem run_colon (h : Spells zs ks ts) (hends : Phrase.endsHead ks = true) :
    takeColon true ts = .ok ((), ts.tail) ∧ demand ":" true ts = .ok ((), ts.tail) ∧
      Spells zs [] ts.tail ∧ ts.tail.length + 1 = ts.length := by
  obtain rfl : ks = [.sign .colon] := eq_of_beq hends
  obtain ⟨htail, hless⟩ := h.tail (s := .colon) rfl
  have hcolon : frontIs ":" ts = true := h.frontIs_sign .colon rfl
  exact ⟨by simp [takeColon, hcolon], by simp [demand, hcolon], htail, hless⟩

/-! ## Plain lines -/

/-- Signs that a plain line does not start with. -/
def headSigns : List Sign :=
  [.at, .funDef, .classDef, .if, .while, .for, .try, .match, .elif, .else, .except]

theorem isAt_of_small (h : Phrase.small f ks = some rest) : ∀ s ∈ headSigns, isAt s ks = false := by
  unfold Phrase.small at h
  split at h
  all_goals first
    | exact fun s hs => by simp only [isAt]; revert s; decide
    | exact fun _ _ => rfl
    | cases h

/-- A line that no head stands in front of is read as statements without blocks. -/
theorem statement_of_isAt (hts : Spells zs ks ts) (hks : ∀ s ∈ headSigns, isAt s ks = false)
    (fuel : Nat) :
    statement (fuel + 1) true ts = smallStatements fuel true ts := by
  have hsign {s : Sign} (hs : s ∈ headSigns) (hopen : s.opens = false) :
      frontIs s.text ts = false :=
    (hts.frontIs_sign s hopen).trans (hks s hs)
  have hat : frontIs "@" ts = false := hsign (s := .at) (by decide) rfl
  have hdef : frontIs "def" ts = false := hsign (s := .funDef) (by decide) rfl
  have hclass : frontIs "class" ts = false := hsign (s := .classDef) (by decide) rfl
  have hasync : frontIs "async" ts = false := hts.frontIs_absent (by decide)
  have hif : frontIs "if" ts = false := hsign (s := .if) (by decide) rfl
  have hwhile : frontIs "while" ts = false := hsign (s := .while) (by decide) rfl
  have hfor : frontIs "for" ts = false := hsign (s := .for) (by decide) rfl
  have hwith : frontIs "with" ts = false := hts.frontIs_absent (by decide)
  have htry : frontIs "try" ts = false := hsign (s := .try) (by decide) rfl
  have hmatch : frontIs "match" ts = false := hsign (s := .match) (by decide) rfl
  simp [statement, hat, hdef, hclass, hasync, hif, hwhile, hfor, hwith, htry, hmatch]

/-! ## What may follow a line -/

/-- The reader goes on where a line of a slot was read, with fuel `n` or more. -/
inductive Rests (n : Nat) : Slot → Reader Outline → Prop where
  | plain {r : Reader Outline} (h : ∀ ts, frontIs "finally" ts = false → ∃ o,
      r true ts = .ok (o, ts)) : Rests n .plain r
  | decorated {m : Nat} (hm : n ≤ m) : Rests n .decorated (decorated m)
  | condition {m : Nat} (hm : n ≤ m) (tests : Nat) : Rests n .condition (branches m tests)
  | loop {m : Nat} (hm : n ≤ m) (tests : Nat) : Rests n .loop (otherwise m tests)
  | attempt {m : Nat} (hm : n ≤ m) (tests : Nat) : Rests n .attempt (handlers m tests)
  | rescue {m k : Nat} (hm : n ≤ m) (hk : n ≤ k) (tests : Nat) :
    Rests n .rescue (do lastly k (← otherwise k (← handler m false tests)).tests)

theorem rests_pure (n : Nat) (o : Outline) : Rests n .plain (pure o) := .plain fun _ _ => ⟨o, rfl⟩

theorem Rests.mono {n m : Nat} {s : Slot} {r : Reader Outline} (h : Rests m s r) (hle : n ≤ m) :
    Rests n s r := by
  cases h with
  | plain h => exact .plain h
  | decorated hm => exact .decorated (Nat.le_trans hle hm)
  | condition hm tests => exact .condition (Nat.le_trans hle hm) tests
  | loop hm tests => exact .loop (Nat.le_trans hle hm) tests
  | attempt hm tests => exact .attempt (Nat.le_trans hle hm) tests
  | rescue hm hk tests => exact .rescue (Nat.le_trans hle hm) (Nat.le_trans hle hk) tests

/-- The reader reads the head of a block at `ts`, and `cont` what follows the block. -/
def OpensBlock (n : Nat) (zs ts : List Token) (r : Reader Outline)
    (cont : Outline → Reader Outline) : Prop :=
  ∃ k owner line us, n ≤ k ∧ r true ts = (do let body ← block k owner line; cont body) true us ∧
    Spells zs [] us

theorem OpensBlock.mono {n m : Nat} {r : Reader Outline} {cont : Outline → Reader Outline}
    (h : OpensBlock m zs ts r cont)
    (hle : n ≤ m) : OpensBlock n zs ts r cont := by
  obtain ⟨k, owner, line, us, hk, h⟩ := h
  exact ⟨k, owner, line, us, Nat.le_trans hle hk, h⟩

/-- The expression of a head, with its colon. -/
theorem takes_head {e : Left} (he : Phrase.namedExpression f ks = some e)
    (hend : Phrase.endsHead e.2 = true)
    (hts : Spells zs ks ts) (hfuel : f + 8 * ts.length ≤ fuel) :
    ∃ a us vs, namedExpression fuel true ts = .ok (a, us) ∧ takeColon true us = .ok ((), vs) ∧
      Spells zs [] vs := by
  obtain ⟨a, us, hrun, hus, -, -⟩ := (level f).namedExpression he hts hfuel
  obtain ⟨hcolon, -, hvs, -⟩ := run_colon hus hend
  exact ⟨a, us, us.tail, hrun, hcolon, hvs⟩

/-- Which head a line starts with. -/
theorem heads_of_sign {s : Sign} (hts : Spells zs (.sign s :: ks) ts) :
    frontIs "@" ts = (Sign.at == s) ∧ frontIs "def" ts = (Sign.funDef == s) ∧
      frontIs "class" ts = (Sign.classDef == s) ∧
      frontIs "async" ts = false ∧ frontIs "if" ts = (Sign.if == s) ∧
      frontIs "while" ts = (Sign.while == s) ∧
      frontIs "for" ts = (Sign.for == s) ∧ frontIs "with" ts = false ∧
      frontIs "try" ts = (Sign.try == s) :=
  ⟨hts.frontIs_sign .at rfl, hts.frontIs_sign .funDef rfl, hts.frontIs_sign .classDef rfl,
    hts.frontIs_absent (by decide),
    hts.frontIs_sign .if rfl, hts.frontIs_sign .while rfl, hts.frontIs_sign .for rfl,
    hts.frontIs_absent (by decide), hts.frontIs_sign .try rfl⟩

theorem opens_condition {e : Left} (he : Phrase.namedExpression f ks = some e)
    (hend : Phrase.endsHead e.2 = true)
    (hts : Spells zs (.sign .if :: ks) ts) (hfuel : f + 8 * ts.length ≤ fuel) :
    OpensBlock fuel zs ts (statement (fuel + 1)) (fun body => branches fuel body.tests) := by
  obtain ⟨htail, hless⟩ := hts.tail (s := .if) rfl
  obtain ⟨a, us, vs, hrun, hcolon, hvs⟩ := takes_head he hend htail (by omega : _ ≤ fuel)
  refine ⟨fuel, "'if' statement", lineOf ts, vs, Nat.le_refl _, ?_, hvs⟩
  simp [statement, heads_of_sign hts, hrun, hcolon]

theorem opens_while {e : Left} (he : Phrase.namedExpression f ks = some e)
    (hend : Phrase.endsHead e.2 = true)
    (hts : Spells zs (.sign .while :: ks) ts) (hfuel : f + 8 * ts.length ≤ fuel) :
    OpensBlock fuel zs ts (statement (fuel + 1)) (fun body => otherwise fuel body.tests) := by
  obtain ⟨htail, hless⟩ := hts.tail (s := .while) rfl
  obtain ⟨a, us, vs, hrun, hcolon, hvs⟩ := takes_head he hend htail (by omega : _ ≤ fuel)
  refine ⟨fuel, "'while' statement", lineOf ts, vs, Nat.le_refl _, ?_, hvs⟩
  simp [statement, heads_of_sign hts, hrun, hcolon]

theorem opens_for {mid : List Kind} {e : Left} (htargets : Phrase.loopTargets f ks = some mid)
    (hin : isAt .in mid = true)
    (he : Phrase.starExpressions f mid.tail = some e) (hend : Phrase.endsHead e.2 = true)
    (hts : Spells zs (.sign .for :: ks) ts) (hfuel : f + 8 * ts.length ≤ fuel) :
    OpensBlock fuel zs ts (statement (fuel + 2)) (fun body => otherwise fuel body.tests) := by
  obtain ⟨htail, hless⟩ := hts.tail (s := .for) rfl
  obtain ⟨_, us, hrun, hus, hlen, -⟩ := (level f).loopTargets htargets htail (by omega : _ ≤ fuel)
  obtain ⟨htail', hless'⟩ := hus.tail hin
  obtain ⟨_, vs, hrun', hvs, hlen', -⟩ := takes_of_starExpressions he htail' (by omega : _ ≤ fuel)
  obtain ⟨hcolon, -, hws, -⟩ := run_colon hvs hend
  have hfor : take "for" true ts = .ok ((), ts.tail) := hts.run_take (s := .for) rfl rfl
  have hin' : take "in" true us = .ok ((), us.tail) := hus.run_take (s := .in) rfl hin
  refine ⟨fuel, "'for' statement", lineOf ts, vs.tail, Nat.le_refl _, ?_, hws⟩
  simp [statement, heads_of_sign hts, loop, hfor, hrun, hin', hrun', hcolon]

theorem opens_attempt (hend : Phrase.endsHead ks = true) (hts : Spells zs (.sign .try :: ks) ts)
    (fuel : Nat) :
    OpensBlock fuel zs ts (statement (fuel + 1)) (fun body => handlers fuel body.tests) := by
  obtain ⟨htail, hless⟩ := hts.tail (s := .try) rfl
  obtain ⟨-, hcolon, hvs, -⟩ := run_colon htail hend
  refine ⟨fuel, "'try' statement", lineOf ts, ts.tail.tail, Nat.le_refl _, ?_, hvs⟩
  simp [statement, heads_of_sign hts, hcolon]

theorem run_takeName_of_isName {k : Kind} (h : Spells zs (k :: ks) ts)
    (hk : Phrase.isName k = true) :
    ∃ word, takeName true ts = .ok (word, ts.tail) ∧ Spells zs ks ts.tail ∧
      ts.tail.length + 1 = ts.length := by
  rcases Bool.or_eq_true_iff.mp hk with hk | hk
  · obtain rfl := eq_of_beq hk
    exact h.run_takeName rfl
  · obtain rfl := eq_of_beq hk
    exact h.run_takeName_match rfl

theorem opens_function {k : Kind} {ps : List Kind} (hk : Phrase.isName k = true)
    (hps : Phrase.parameters f false ks = some ps) (hclose : isAt .closeParen ps = true)
    (hresult : Phrase.resultHead f ps.tail = true)
    (hts : Spells zs (.sign .funDef :: k :: .sign .openParen :: ks) ts)
    (hfuel : f + 8 * ts.length ≤ fuel) :
    ∃ cont, OpensBlock fuel zs ts (statement (fuel + 2)) cont ∧
      ∀ body n, Rests n .plain (cont body) := by
  obtain ⟨htail, hless⟩ := hts.tail (s := .funDef) rfl
  obtain ⟨name, hname, htail', hless'⟩ := run_takeName_of_isName htail hk
  obtain ⟨htail'', hless''⟩ := htail'.tail (s := .openParen) rfl
  obtain ⟨_, us, hrun, hus, hlen, -⟩ :=
    (level f).parameters false {} rfl rfl hps htail'' (by omega : _ ≤ fuel)
  obtain ⟨hbehind, hless3⟩ := hus.tail hclose
  have hopen : frontIs "(" ts.tail.tail = true := htail'.frontIs_open .openParen rfl
  have htake : take ")" true us = .ok ((), us.tail) := hus.run_take (s := .closeParen) rfl hclose
  have hdemand : demand "(" true ts.tail.tail = .ok ((), ts.tail.tail.tail) := by
    simp [demand, hopen]
  have harrow : frontIs "->" us.tail = isAt .arrow ps.tail := hbehind.frontIs_sign .arrow rfl
  let own := if "test".toList.isPrefixOf name.toList then 1 else 0
  refine ⟨fun body => pure { names := [name], tests := body.tests + own }, ?_,
    fun body n => rests_pure n _⟩
  unfold Phrase.resultHead at hresult
  split_ifs at hresult with hat
  · obtain ⟨e, he, hend⟩ := (Option.any_eq_true _ _).mp hresult
    obtain ⟨hbehind', hless4⟩ := hbehind.tail hat
    obtain ⟨a, vs, hrun', hvs, hlen', -⟩ := (level f).expression he hbehind' (by omega : _ ≤ fuel)
    obtain ⟨-, hcolon, hws, -⟩ := run_colon hvs hend
    have hattempt : attempt (do skip; expression fuel) true us.tail =
        .ok (.ok (a, vs), us.tail) := by
      simp [attempt, hrun']
    refine ⟨fuel, "function definition", lineOf ts, vs.tail, Nat.le_refl _, ?_, hws⟩
    simp [statement, heads_of_sign hts, definition, hname, hdemand, hrun, htake, harrow, hat,
      hattempt, hcolon, own]
  · obtain ⟨-, hcolon, hws, -⟩ := run_colon hbehind hresult
    refine ⟨fuel, "function definition", lineOf ts, us.tail.tail, Nat.le_refl _, ?_, hws⟩
    simp [statement, heads_of_sign hts, definition, hname, hdemand, hrun, htake, harrow, hat,
      hcolon, own]

theorem opens_subclass {rest : List Kind} (hbases : Phrase.arguments f false ks = some rest)
    (hend : Phrase.endsHead rest = true)
    (hts : Spells zs (.sign .classDef :: .name :: .sign .openParen :: ks) ts)
    (hfuel : f + 8 * ts.length ≤ fuel) :
    ∃ cont, OpensBlock fuel zs ts (statement (fuel + 2)) cont ∧
      ∀ body n, Rests n .plain (cont body) := by
  obtain ⟨htail, hless⟩ := hts.tail (s := .classDef) rfl
  obtain ⟨name, hname, htail', hless'⟩ := htail.run_takeName rfl
  obtain ⟨htail'', hless''⟩ := htail'.tail (s := .openParen) rfl
  obtain ⟨_, us, hrun, hus, hlen, -⟩ :=
    (level f).arguments false ⟨lineOf ts.tail.tail.tail, true, false, false⟩ hbases
    htail'' (by omega : _ ≤ fuel)
  obtain ⟨hcolon, -, hvs, -⟩ := run_colon hus hend
  have hopen : frontIs "(" ts.tail.tail = true := htail'.frontIs_open .openParen rfl
  have htake : take "class" true ts = .ok ((), ts.tail) := hts.run_take (s := .classDef) rfl rfl
  refine ⟨fun body => pure { names := [name], tests := body.tests },
    ⟨fuel, "class definition", lineOf ts, us.tail,
    Nat.le_refl _, ?_, hvs⟩, fun body n => rests_pure n _⟩
  simp only at hrun
  simp [statement, heads_of_sign hts, definition, htake, hname, hopen, hrun, hcolon]

theorem opens_baseless (hend : Phrase.endsHead ks = true)
    (hts : Spells zs (.sign .classDef :: .name :: ks) ts) (fuel : Nat) :
    ∃ cont, OpensBlock fuel zs ts (statement (fuel + 2)) cont ∧
      ∀ body n, Rests n .plain (cont body) := by
  obtain ⟨htail, hless⟩ := hts.tail (s := .classDef) rfl
  obtain ⟨name, hname, htail', hless'⟩ := htail.run_takeName rfl
  obtain ⟨hcolon, -, hvs, -⟩ := run_colon htail' hend
  obtain rfl : ks = [.sign .colon] := eq_of_beq hend
  have hopen : frontIs "(" ts.tail.tail = false := htail'.frontIs_open .openParen rfl
  have htake : take "class" true ts = .ok ((), ts.tail) := hts.run_take (s := .classDef) rfl rfl
  refine ⟨fun body => pure { names := [name], tests := body.tests },
    ⟨fuel, "class definition", lineOf ts,
    ts.tail.tail.tail, Nat.le_refl _, ?_, hvs⟩, fun body n => rests_pure n _⟩
  simp [statement, heads_of_sign hts, definition, htake, hname, hopen, hcolon]

/-! ## Further branches of a statement -/

theorem opens_branch {e : Left} (he : Phrase.namedExpression f ks = some e)
    (hend : Phrase.endsHead e.2 = true)
    (hts : Spells zs (.sign .elif :: ks) ts) (hfuel : f + 8 * ts.length ≤ fuel) (tests : Nat) :
    OpensBlock fuel zs ts (branches (fuel + 1) tests)
      (fun body => branches fuel (tests + body.tests)) := by
  obtain ⟨htail, hless⟩ := hts.tail (s := .elif) rfl
  obtain ⟨a, us, vs, hrun, hcolon, hvs⟩ := takes_head he hend htail (by omega : _ ≤ fuel)
  have helif : frontIs "elif" ts = true := hts.frontIs_sign .elif rfl
  refine ⟨fuel, "'elif' statement", lineOf ts, vs, Nat.le_refl _, ?_, hvs⟩
  rw [branches]
  simp [helif, hrun, hcolon]

theorem opens_last (hend : Phrase.endsHead ks = true) (hts : Spells zs (.sign .else :: ks) ts)
    (fuel tests : Nat) :
    OpensBlock fuel zs ts (otherwise (fuel + 1) tests)
      (fun body => pure { tests := tests + body.tests }) := by
  obtain ⟨htail, hless⟩ := hts.tail (s := .else) rfl
  obtain ⟨-, hcolon, hvs, -⟩ := run_colon htail hend
  have helse : frontIs "else" ts = true := hts.frontIs_sign .else rfl
  refine ⟨fuel, "'else' statement", lineOf ts, ts.tail.tail, Nat.le_refl _, ?_, hvs⟩
  simp [otherwise, helse, hcolon]

/-- Without a further condition the last branch is looked for. -/
theorem branches_eq (h : frontIs "elif" ts = false) (fuel tests : Nat) :
    branches (fuel + 1) tests true ts = otherwise fuel tests true ts := by
  simp [branches, h]

theorem frontIs_star_of_starts (hts : Spells zs ks ts) (hstarts : starts ks = true) :
    frontIs "*" ts = false :=
  (hts.frontIs_sign .star rfl).trans
    (isAt_of_ne fun rest heq => by rw [heq] at hstarts; cases hstarts)

theorem opens_rescue (hstarts : starts ks = true) (hend : Phrase.handlerHead f ks = true)
    (hts : Spells zs (.sign .except :: ks) ts) (hfuel : f + 8 * ts.length ≤ fuel) (tests : Nat) :
    ∃ k owner line us, fuel ≤ k ∧
      handler (fuel + 1) false tests true ts = (do
        let body ← block k owner line
        handler fuel false (tests + body.tests)) true us ∧ Spells zs [] us := by
  obtain ⟨htail, hless⟩ := hts.tail (s := .except) rfl
  have hexcept : frontIs "except" ts = true := hts.frontIs_sign .except rfl
  have hstar : frontIs "*" ts.tail = false := frontIs_star_of_starts htail hstarts
  obtain ⟨e, he, hend⟩ := (Option.any_eq_true _ _).mp hend
  obtain ⟨a, us, hrun, hus, hlen, -⟩ := (level f).expression he htail (by omega : _ ≤ fuel)
  have has : frontIs "as" us = isAt .as e.2 := hus.frontIs_sign .as rfl
  split_ifs at hend with hat
  · obtain ⟨hname, hend⟩ := Bool.and_eq_true_iff.mp hend
    obtain ⟨htail', -⟩ := hus.tail hat
    obtain ⟨name, hname, hvs, -⟩ := htail'.run_takeName hname
    obtain ⟨hcolon, -, hws, -⟩ := run_colon hvs hend
    have hcomma : frontIs "," us = false :=
      (hus.frontIs_sign .comma rfl).trans (isAt_of_isAt hat (by decide))
    refine ⟨fuel, "'except' statement", lineOf ts, us.tail.tail.tail, Nat.le_refl _, ?_, hws⟩
    rw [handler]
    simp [hexcept, hstar, htail.startsExpression_eq, hstarts, hrun, hcomma, has, hat, hname, hcolon]
  · obtain ⟨hcolon, -, hws, -⟩ := run_colon hus hend
    obtain heq : e.2 = [.sign .colon] := eq_of_beq hend
    have hcomma : frontIs "," us = false := (hus.frontIs_sign .comma rfl).trans (by rw [heq]; rfl)
    refine ⟨fuel, "'except' statement", lineOf ts, us.tail, Nat.le_refl _, ?_, hws⟩
    rw [handler]
    simp [hexcept, hstar, htail.startsExpression_eq, hstarts, hrun, hcomma, has, hat, hcolon]

/-! ## Decorators -/

theorem statement_decorator {e : Left} (he : Phrase.namedExpression f ks = some e) (hend : e.2 = [])
    (hts : Spells zs (.sign .at :: ks) ts) (hfuel : f + 8 * ts.length ≤ fuel) :
    statement (fuel + 1) true ts = decorated fuel true zs := by
  obtain ⟨htail, hless⟩ := hts.tail (s := .at) rfl
  obtain ⟨a, us, hrun, hus, hlen, -⟩ := (level f).namedExpression he htail (by omega : _ ≤ fuel)
  rw [hend] at hus
  cases hus with
  | nil line level =>
    have hbreak : takeNewline true (⟨.newline, line, level⟩ :: zs) = .ok ((), zs) := rfl
    simp [statement, heads_of_sign hts, hrun, hbreak]

/-- Behind a decorator a further one or a definition is read as a statement. -/
theorem decorated_eq {s : Sign} (hs : s = .at ∨ s = .funDef ∨ s = .classDef)
    (hts : Spells zs (.sign s :: ks) ts) (fuel : Nat) :
    decorated (fuel + 1) true ts = statement fuel true ts := by
  have hany : ["@", "def", "class"].any (frontIs · ts) = true := by
    simp only [List.any_cons, List.any_nil, heads_of_sign hts]
    rcases hs with rfl | rfl | rfl <;> rfl
  simp [decorated, hany, -List.any_cons]

/-! ## Plain lines -/

theorem statement_plain (h : Phrase.small f ks = some []) (hts : Spells zs ks ts)
    (hfuel : f + 1 + 8 * ts.length ≤ fuel) :
    ∃ o, statement (fuel + 2) true ts = .ok (o, zs) := by
  obtain ⟨o, us, hrun, hus, -, -⟩ := takes_smallStatement h hts hfuel
  cases hus with
  | nil line level =>
    refine ⟨o, ?_⟩
    rw [statement_of_isAt hts (isAt_of_small h)]
    have hsemicolon : frontIs ";" (⟨.newline, line, level⟩ :: zs) = false := rfl
    have hbreak : takeNewline true (⟨.newline, line, level⟩ :: zs) = .ok ((), zs) := rfl
    simp [smallStatements, hrun, hsemicolon, hbreak]

end FlowMachine.Module
