import FlowMachine.Proofs.Module.Heads

/-!
# Reading nested blocks

Lines whose blocks are nested as they should be are read, by induction on the number of their
tokens: a line either goes on with the statement in front of it, or that statement ends and the line
starts one.
-/
namespace FlowMachine.Module

variable {zs ts : List Token} {ks : List Kind} {f n m fuel : Nat} {form : Form} {s s' : Slot}
    {r : Reader Outline}

/-- A line of the form leads from `ts` on to a place where what is left may follow a line of the
slot. -/
inductive Goes (n : Nat) (form : Form) (zs ts : List Token) (r : Reader Outline) (s : Slot) :
    Prop where
  | line (r' : Reader Outline) (hopens : form.opens = false) (hr' : Rests n s r')
      (heq : r true ts = r' true zs)
  | block (cont : Outline → Reader Outline) (hopens : form.opens = true)
      (hblock : OpensBlock n zs ts r cont)
    (hcont : ∀ body, Rests n s (cont body))

theorem Goes.congr {r' : Reader Outline} (h : Goes m form zs ts r s) (heq : r' true ts = r true ts)
    (hle : n ≤ m) :
    Goes n form zs ts r' s := by
  cases h with
  | line r'' hopens hr'' heq' => exact .line r'' hopens (hr''.mono hle) (heq.trans heq')
  | block cont hopens hblock hcont =>
    obtain ⟨k, owner, line, us, hk, hrun, hus⟩ := hblock
    exact .block cont hopens ⟨k, owner, line, us, Nat.le_trans hle hk, heq.trans hrun, hus⟩
      fun body => (hcont body).mono hle

theorem goes_statement (hshape : Phrase.Shape f ks form) (hs : Slot.start? form = some s)
    (hts : Spells zs ks ts)
    (hfuel : f + 8 * ts.length + 1 ≤ fuel) : Goes fuel form zs ts (statement (fuel + 2)) s := by
  cases hshape with
  | decorator he hend =>
    cases hs
    exact .line _ rfl (.decorated (Nat.le_succ fuel)) (statement_decorator he hend hts (by omega))
  | function hk hps hclose hresult =>
    cases hs
    obtain ⟨cont, hblock, hcont⟩ := opens_function hk hps hclose hresult hts (by omega : _ ≤ fuel)
    exact .block cont rfl hblock fun body => hcont body fuel
  | subclass hbases hend =>
    cases hs
    obtain ⟨cont, hblock, hcont⟩ := opens_subclass hbases hend hts (by omega : _ ≤ fuel)
    exact .block cont rfl hblock fun body => hcont body fuel
  | baseless hend =>
    cases hs
    obtain ⟨cont, hblock, hcont⟩ := opens_baseless hend hts fuel
    exact .block cont rfl hblock fun body => hcont body fuel
  | condition he hend =>
    cases hs
    exact .block _ rfl
      ((opens_condition he hend hts (by omega : _ ≤ fuel + 1)).mono (Nat.le_succ fuel))
      fun body => .condition (Nat.le_succ fuel) body.tests
  | whileLoop he hend =>
    cases hs
    exact .block _ rfl ((opens_while he hend hts (by omega : _ ≤ fuel + 1)).mono (Nat.le_succ fuel))
      fun body => .loop (Nat.le_succ fuel) body.tests
  | forLoop htargets hin he hend =>
    cases hs
    exact .block _ rfl (opens_for htargets hin he hend hts (by omega)) fun body =>
      .loop (Nat.le_refl fuel) body.tests
  | attempt hend =>
    cases hs
    exact .block _ rfl ((opens_attempt hend hts (fuel + 1)).mono (Nat.le_succ fuel))
      fun body => .attempt (Nat.le_succ fuel) body.tests
  | plain h =>
    cases hs
    obtain ⟨o, ho⟩ := statement_plain h hts (by omega : _ ≤ fuel)
    exact .line (pure o) rfl (rests_pure fuel o) ho
  | branch => cases hs
  | last => cases hs
  | rescue => cases hs

/-! ## What follows a line -/

/-- None of the words that go on with a statement stands at the front. -/
structure Stops (ts : List Token) : Prop where
  elif : frontIs "elif" ts = false
  else_ : frontIs "else" ts = false
  except : frontIs "except" ts = false
  finally_ : frontIs "finally" ts = false

/-- A statement that may end here ends, unless it is gone on with. -/
theorem Rests.passes (hr : Rests n s r) (hclosed : s.isClosed = true) (hstops : Stops ts)
    (hn : 2 ≤ n) :
    ∃ o, r true ts = .ok (o, ts) := by
  have hotherwise {m tests : Nat} (hm : 1 ≤ m) : otherwise m tests true ts =
      .ok ({ tests }, ts) := by
    obtain ⟨m, rfl⟩ : ∃ k, m = k + 1 := ⟨m - 1, by omega⟩
    simp [otherwise, hstops.else_]
  cases hr with
  | plain h => exact h ts hstops.finally_
  | decorated => cases hclosed
  | @condition m hm tests =>
    obtain ⟨m, rfl⟩ : ∃ k, m = k + 1 := ⟨m - 1, by omega⟩
    exact ⟨_, (branches_eq hstops.elif m tests).trans (hotherwise (by omega))⟩
  | loop hm tests => exact ⟨_, hotherwise (by omega)⟩
  | attempt => cases hclosed
  | @rescue m k hm hk tests =>
    obtain ⟨m, rfl⟩ : ∃ j, m = j + 1 := ⟨m - 1, by omega⟩
    have hhandler : handler (m + 1) false tests true ts = .ok (tests, ts) := by
      simp [handler, hstops.except]
    have hlastly : lastly k tests true ts = .ok ({ tests }, ts) := by
      obtain ⟨k, rfl⟩ : ∃ j, k = j + 1 := ⟨k - 1, by omega⟩
      simp [lastly, hstops.finally_]
    exact ⟨{ tests }, by simp [hhandler, hotherwise (m := k) (by omega), hlastly]⟩

theorem stops_of_start (hshape : Phrase.Shape f ks form) (hs : Slot.start? form = some s)
    (hts : Spells zs ks ts) :
    Stops ts := by
  have hsigns : ∀ t ∈ [Sign.elif, .else, .except], isAt t ks = false := by
    cases hshape with
    | plain h =>
      have hheads := isAt_of_small h
      exact fun t ht =>
        hheads t ((by decide : ∀ t ∈ [Sign.elif, .else, .except], t ∈ headSigns) t ht)
    | branch => cases hs
    | last => cases hs
    | rescue => cases hs
    | _ => simp only [isAt]; decide
  exact ⟨(hts.frontIs_sign .elif rfl).trans (hsigns .elif (by decide)),
    (hts.frontIs_sign .else rfl).trans (hsigns .else (by decide)),
    (hts.frontIs_sign .except rfl).trans (hsigns .except (by decide)),
    hts.frontIs_absent (by decide)⟩

/-- Only a few slots are gone on with by a line; behind the others it starts a statement. -/
theorem after?_cases (h : s.after? form = some s') :
    (s = .condition ∧ form = .branch ∧ s' = .condition) ∨
    ((s = .condition ∨ s = .loop ∨ s = .rescue) ∧ form = .last ∧ s' = .plain) ∨
    ((s = .rescue ∨ s = .attempt) ∧ form = .rescue ∧ s' = .rescue) ∨
    (s = .decorated ∧ (form = .decorator ∨ form = .definition) ∧ Slot.start? form = some s') ∨
    ((s = .fresh ∨ s.isClosed = true) ∧ Slot.start? form = some s') := by
  revert h
  cases s <;> cases form <;> cases s' <;> decide

/-- What follows the last line of a condition, a loop or handlers is one more block. -/
theorem Rests.goes_last (hr : Rests (n + 4) s r) (hs : s = .condition ∨ s = .loop ∨ s = .rescue)
    (hshape : Phrase.Shape f ks .last) (hts : Spells zs ks ts) (hn : f + 8 * ts.length + 1 ≤ n) :
    Goes n .last zs ts r .plain := by
  cases hshape with
  | last hend =>
    have helif : frontIs "elif" ts = false := hts.frontIs_sign .elif rfl
    have hexcept : frontIs "except" ts = false := hts.frontIs_sign .except rfl
    cases hr with
    | @condition m hm tests =>
      obtain ⟨m, rfl⟩ : ∃ k, m = k + 2 := ⟨m - 2, by omega⟩
      obtain ⟨k, owner, line, us, hk, hrun, hus⟩ := opens_last hend hts m tests
      exact .block _ rfl ⟨k, owner, line, us, by omega,
        (branches_eq helif _ tests).trans hrun, hus⟩
        fun body => rests_pure n _
    | @loop m hm tests =>
      obtain ⟨m, rfl⟩ : ∃ k, m = k + 1 := ⟨m - 1, by omega⟩
      exact .block _ rfl ((opens_last hend hts m tests).mono (by omega)) fun body =>
        rests_pure n _
    | @rescue m k hm hk tests =>
      obtain ⟨m, rfl⟩ : ∃ j, m = j + 1 := ⟨m - 1, by omega⟩
      obtain ⟨k, rfl⟩ : ∃ j, k = j + 1 := ⟨k - 1, by omega⟩
      have hhandler : handler (m + 1) false tests true ts = .ok (tests, ts) := by
        simp [handler, hexcept]
      obtain ⟨j, owner, line, us, hj, hrun, hus⟩ := opens_last hend hts k tests
      refine .block (fun body => lastly (k + 1) (tests + body.tests)) rfl
        ⟨j, owner, line, us, by omega, ?_, hus⟩
        fun body => .plain fun us hus => ⟨_, by simp [lastly, hus]; rfl⟩
      simp only [run_bind, hhandler, hrun]
      cases block j owner line true us <;> rfl
    | plain => simp at hs
    | decorated => simp at hs
    | attempt => simp at hs

/-- A handler goes on with an attempt or with another handler. -/
theorem Rests.goes_rescue (hr : Rests (n + 4) s r) (hs : s = .rescue ∨ s = .attempt)
    (hshape : Phrase.Shape f ks .rescue) (hts : Spells zs ks ts) (hn : f + 8 * ts.length + 1 ≤ n) :
    Goes n .rescue zs ts r .rescue := by
  cases hshape with
  | rescue hstarts hend =>
    cases hr with
    | @rescue m k hm hk tests =>
      obtain ⟨m, rfl⟩ : ∃ j, m = j + 1 := ⟨m - 1, by omega⟩
      obtain ⟨j, owner, line, us, hj, hrun, hus⟩ :=
        opens_rescue hstarts hend hts (by omega : _ ≤ m) tests
      refine .block (fun body => do
        lastly k (← otherwise k (← handler m false (tests + body.tests))).tests) rfl
        ⟨j, owner, line, us, by omega, ?_, hus⟩ fun body => .rescue (by omega) (by omega) _
      simp only [run_bind, hrun]
      cases block j owner line true us <;> rfl
    | @attempt m hm tests =>
      obtain ⟨m, rfl⟩ : ∃ j, m = j + 2 := ⟨m - 2, by omega⟩
      obtain ⟨j, owner, line, us, hj, hrun, hus⟩ :=
        opens_rescue hstarts hend hts (by omega : _ ≤ m) tests
      have hfinally : frontIs "finally" ts = false := hts.frontIs_absent (by decide)
      have hexcept : frontIs "except" ts = true := hts.frontIs_sign .except rfl
      have hstar : frontIs "*" ts.tail = false :=
        frontIs_star_of_starts (hts.tail (s := .except) rfl).1 hstarts
      refine .block (fun body => do
        lastly (m + 1) (← otherwise (m + 1) (← handler m false (tests + body.tests))).tests) rfl
        ⟨j, owner, line, us, by omega, ?_, hus⟩ fun body => .rescue (by omega) (by omega) _
      simp [handlers, hfinally, hexcept, hstar, hrun]
      cases block j owner line true us <;> rfl
    | plain => simp at hs
    | decorated => simp at hs
    | condition => simp at hs
    | loop => simp at hs

/-- A line either goes on with the statement in front of it, or that statement ends and the line
starts one. -/
theorem Rests.goes (hr : Rests (n + 4) s r) (hs : s ≠ .fresh) (hafter : s.after? form = some s')
    (hshape : Phrase.Shape f ks form) (hts : Spells zs ks ts) (hn : f + 8 * ts.length + 1 ≤ n) :
    Goes n form zs ts r s' ∨ (∃ o, r true ts = .ok (o, ts)) ∧ Slot.start? form = some s' := by
  rcases after?_cases hafter with ⟨rfl, rfl, rfl⟩ | ⟨hlast, rfl, rfl⟩ | ⟨hrescue, rfl, rfl⟩ |
    ⟨rfl, hform, hstart⟩ | ⟨hclosed, hstart⟩
  · left
    cases hr with
    | @condition m hm tests =>
      obtain ⟨m, rfl⟩ : ∃ k, m = k + 1 := ⟨m - 1, by omega⟩
      cases hshape with
      | branch he hend =>
        exact .block _ rfl ((opens_branch he hend hts (by omega : _ ≤ m) tests).mono (by omega))
          fun body => .condition (by omega) _
  · exact .inl (hr.goes_last hlast hshape hts hn)
  · exact .inl (hr.goes_rescue hrescue hshape hts hn)
  · left
    cases hr with
    | @decorated m hm =>
      obtain ⟨m, rfl⟩ : ∃ j, m = j + 3 := ⟨m - 3, by omega⟩
      have hgoes := goes_statement hshape hstart hts (by omega : _ ≤ m)
      have heq : Module.decorated (m + 3) true ts = statement (m + 2) true ts := by
        cases hshape with
        | decorator => exact decorated_eq (.inl rfl) hts _
        | function => exact decorated_eq (.inr (.inl rfl)) hts _
        | subclass => exact decorated_eq (.inr (.inr rfl)) hts _
        | baseless => exact decorated_eq (.inr (.inr rfl)) hts _
        | _ => simp at hform
      exact hgoes.congr heq (by omega)
  · right
    refine ⟨hr.passes (hclosed.resolve_left hs) (stops_of_start hshape hstart hts) (by omega),
      hstart⟩

/-! ## Nested blocks -/

/-- Tokens of lines that close all open blocks, of which the slots are given, the innermost
first. -/
inductive Nested : List Slot → List Token → Prop where
  | eof {s : Slot} (hs : s.isClosed = true) (line level : Nat) : Nested [s] [⟨.eof, line, level⟩]
  | dedent {s s' : Slot} {slots : List Slot} {ts : List Token} (hs : s.isClosed = true)
      (line level : Nat)
    (h : Nested (s' :: slots) ts) : Nested (s :: s' :: slots) (⟨.dedent, line, level⟩ :: ts)
  | line {s s' : Slot} {slots : List Slot} {zs ts : List Token} {ks : List Kind} {form : Form}
    (hts : Spells zs ks ts) (hform : Phrase.form? ks = some form) (hafter : s.after? form = some s')
    (hopens : form.opens = false) (h : Nested (s' :: slots) zs) : Nested (s :: slots) ts
  | block {s s' : Slot} {slots : List Slot} {zs ts : List Token} {ks : List Kind} {form : Form}
      {line level : Nat}
    (hts : Spells (⟨.indent, line, level⟩ :: zs) ks ts) (hform : Phrase.form? ks = some form)
    (hafter : s.after? form = some s') (hopens : form.opens = true)
      (h : Nested (.fresh :: s' :: slots) zs) :
    Nested (s :: slots) ts

/-- The tokens go on with the blocks that are open, if there are any. -/
def GoesOn : List Slot → List Token → Prop
  | [], us => ∃ line level, us = [⟨.eof, line, level⟩]
  | slots, us => Nested slots us

/-- Reads the further statements of a block behind its first one. -/
def further (fuel : Nat) (here : Outline) : Reader Outline := do
  match ← get with
  | ⟨.dedent, _, _⟩ :: rest =>
    set rest
    return here
  | ⟨.eof, _, _⟩ :: _ => return here
  | _ => return here.append (← statements fuel)

theorem statements_succ (fuel : Nat) :
    statements (fuel + 1) = (do further fuel (← statement fuel)) := by
  rw [statements]
  rfl

/-- The reader succeeds and leaves tokens that go on with the blocks. -/
def Leaves (slots : List Slot) (ts : List Token) (r : Reader Outline) : Prop :=
  ∃ o us, r true ts = .ok (o, us) ∧ us.length ≤ ts.length ∧ GoesOn slots us

/-- A whole block is read, from its first line on or from behind one of its lines. -/
def ReadsBlock (slots : List Slot) (s : Slot) (ts : List Token) : Prop :=
  (s = .fresh → ∀ m, 16 * ts.length + 40 ≤ m → Leaves slots ts (statements m)) ∧
  (∀ r n m, Rests n s r → 16 * ts.length + 40 ≤ n → n ≤ m → Leaves slots ts (do further m (← r)))

theorem Spells.length_lt (h : Spells zs ks ts) : zs.length < ts.length := by
  induction h with
  | display hdata _ ih =>
    simp only [List.length_append]
    omega
  | nil => simp
  | _ => simp only [List.length_cons]; omega

/-- A line or a head is read with what follows it. -/
theorem Goes.leaves {slots : List Slot} (hgoes : Goes n form zs ts r s) (hts : Spells zs ks ts)
    (hn : 16 * ts.length + 24 ≤ n) (hm : n ≤ m)
    (hline : form.opens = false → ReadsBlock slots s zs)
    (hblock : form.opens = true → ∃ line level vs, zs = ⟨.indent, line, level⟩ :: vs ∧
      ReadsBlock (s :: slots) .fresh vs ∧ ∀ us, us.length ≤ vs.length → Nested (s :: slots) us →
      ReadsBlock slots s us) :
    Leaves slots ts (do further m (← r)) := by
  have hlen := hts.length_lt
  cases hgoes with
  | line r' hopens hr' heq =>
    obtain ⟨o, us, hrun, hlen', hus⟩ := (hline hopens).2 r' n m hr' (by omega) hm
    refine ⟨o, us, ?_, by omega, hus⟩
    rw [run_bind] at hrun ⊢
    rw [heq, hrun]
  | block cont hopens hhead hcont =>
    obtain ⟨line, level, vs, rfl, hfresh, hbehind⟩ := hblock hopens
    obtain ⟨k, owner, start, us, hk, hrun, hus⟩ := hhead
    obtain ⟨k, rfl⟩ : ∃ j, k = j + 1 := ⟨k - 1, by omega⟩
    simp only [List.length_cons] at hlen
    obtain ⟨body, ws, hbody, hlen', hws⟩ := hfresh.1 rfl k (by omega)
    obtain ⟨o, xs, hrun', hlen'', hxs⟩ :=
      (hbehind ws hlen' hws).2 (cont body) n m (hcont body) (by omega) hm
    refine ⟨o, xs, ?_, by omega, hxs⟩
    cases hus with
    | nil line' level' =>
      have hblock' : Module.block (k + 1) owner start true
          (⟨.newline, line', level'⟩ :: ⟨.indent, line, level⟩ :: vs) =
          .ok (body, ws) := by simp [Module.block, hbody]
      rw [run_bind] at hrun' ⊢
      rw [hrun, run_bind, hblock']
      exact hrun'

theorem Spells.further_eq (h : Spells zs ks ts) (hks : ks ≠ []) (fuel : Nat) (here : Outline) :
    further fuel here true ts = (do return here.append (← statements fuel)) true ts := by
  cases h with
  | nil => exact absurd rfl hks
  | display hdata _ =>
    obtain ⟨s, -, line, level, us, rfl⟩ := hdata.front
    rfl
  | sign s line level _ =>
    cases hs : s.isWord <;> simp [further, Sign.lexeme, hs]
  | _ => rfl

/-- What a line leads to is read, when what follows the line is. -/
theorem leaves_of_line {slots : List Slot} (hts : Spells zs ks ts)
    (hform : Phrase.form? ks = some form)
    (hafter : s.after? form = some s') (hline : form.opens = false → ReadsBlock slots s' zs)
    (hblock : form.opens = true → ∃ line level vs, zs = ⟨.indent, line, level⟩ :: vs ∧
      ReadsBlock (s' :: slots) .fresh vs ∧
        ∀ us, us.length ≤ vs.length → Nested (s' :: slots) us → ReadsBlock slots s' us) :
    ReadsBlock slots s ts := by
  have hshape := Phrase.shape_of_form? hform
  have hkinds := hts.length_kinds
  have hstatement {m : Nat} (hm : 16 * ts.length + 27 ≤ m) (hstart : Slot.start? form = some s') :
      Leaves slots ts (statements m) := by
    obtain ⟨m, rfl⟩ : ∃ k, m = k + 3 := ⟨m - 3, by omega⟩
    rw [statements_succ]
    exact (goes_statement hshape hstart hts (by omega : _ ≤ m)).leaves hts (by omega)
      (by omega) hline hblock
  constructor
  · rintro rfl m hm
    exact hstatement (by omega) (by simpa [Slot.after?] using hafter)
  · intro r n m hr hn hm
    obtain ⟨n, rfl⟩ : ∃ k, n = k + 4 := ⟨n - 4, by omega⟩
    have hs : s ≠ .fresh := by rintro rfl; cases hr
    rcases hr.goes hs hafter hshape hts (by omega) with hgoes | ⟨⟨o, ho⟩, hstart⟩
    · exact hgoes.leaves hts (by omega) (by omega) hline hblock
    · obtain ⟨o', us, hrun, hlen, hus⟩ := hstatement (m := m) (by omega) hstart
      refine ⟨o.append o', us, ?_, hlen, hus⟩
      have hks : ks ≠ [] := by rintro rfl; cases hform
      rw [run_bind, ho]
      simp only []
      rw [hts.further_eq hks]
      simp [hrun]

/-- At the end of a block its last statement ends. -/
theorem readsBlock_of_closed {slots : List Slot} {us : List Token} (hs : s.isClosed = true)
    (hstops : Stops ts)
    (hfurther : ∀ m o, further m o true ts = .ok (o, us)) (hlen : us.length ≤ ts.length)
    (hus : GoesOn slots us) :
    ReadsBlock slots s ts := by
  constructor
  · rintro rfl
    cases hs
  · intro r n m hr hn hm
    obtain ⟨o, ho⟩ := hr.passes hs hstops (by omega)
    exact ⟨o, us, by simp [ho, hfurther], hlen, hus⟩

/-- All lines of a block are read, whatever its last line was. -/
theorem reads_of_nested {slots : List Slot} (h : Nested (s :: slots) ts) :
    ReadsBlock slots s ts := by
  induction hlen : ts.length using Nat.strongRecOn generalizing s slots ts with
  | ind k ih =>
    cases h with
    | eof hs line level =>
      exact readsBlock_of_closed hs ⟨rfl, rfl, rfl, rfl⟩ (fun _ _ => rfl)
        (Nat.le_refl _) ⟨line, level, rfl⟩
    | dedent hs line level h =>
      exact readsBlock_of_closed hs ⟨rfl, rfl, rfl, rfl⟩ (fun _ _ => rfl) (Nat.le_succ _) h
    | line hts hform hafter hopens h =>
      have hless := hts.length_lt
      exact leaves_of_line hts hform hafter (fun _ => ih _ (by omega) h rfl)
        (fun hopens' => by simp [hopens] at hopens')
    | @block _ s' _ zs _ ks form line level hts hform hafter hopens h =>
      have hless := hts.length_lt
      simp only [List.length_cons] at hless
      refine leaves_of_line hts hform hafter (fun hopens' => by simp [hopens] at hopens') fun _ =>
        ?_
      exact ⟨line, level, zs, rfl, ih _ (by omega) h rfl,
        fun us hus hnested => ih _ (by omega) hnested rfl⟩

/-- A module with all its blocks closed is read. -/
theorem moduleBody_of_nested (h : Nested [.fresh] ts) {fuel : Nat}
    (hfuel : 16 * ts.length + 40 ≤ fuel) :
    ∃ o us, moduleBody fuel true ts = .ok (o, us) := by
  obtain ⟨o, us, hrun, -, line, level, rfl⟩ := (reads_of_nested h).1 rfl fuel hfuel
  simp only [moduleBody, run_bind, run_get]
  split
  · exact ⟨_, _, rfl⟩
  · exact ⟨o, _, by simp [hrun]; rfl⟩

end FlowMachine.Module
