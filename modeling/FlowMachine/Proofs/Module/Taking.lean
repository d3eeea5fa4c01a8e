import FlowMachine.Proofs.Module.Phrases
import Mathlib.Tactic.SplitIfs

/-!
# What readers take

A reader of tokens agrees with a reader of kinds when it takes the tokens of all kinds that the
other takes, whatever the tokens are, as long as its fuel is eight times their number and some more.
What stands at the front of tokens is told by their kinds, and what a step of a reader does is told
by what stands there.
-/
namespace FlowMachine.Module

variable {α β : Type}

/-! ## Steps of readers -/

@[simp]
theorem run_pure (a : α) (telling : Bool) (ts : List Token) :
    (pure a : Reader α) telling ts = .ok (a, ts) := rfl

@[simp]
theorem run_bind (x : Reader α) (g : α → Reader β) (telling : Bool) (ts : List Token) :
    (x >>= g) telling ts = match x telling ts with
      | .ok (a, rest) => g a telling rest
      | .error fault => .error fault := by
  show (x telling >>= fun a => g a telling) ts = _
  simp only [bind, StateT.bind, Except.bind]
  cases x telling ts <;> rfl

@[simp]
theorem run_map (g : α → β) (x : Reader α) (telling : Bool) (ts : List Token) :
    (g <$> x) telling ts = match x telling ts with
      | .ok (a, rest) => .ok (g a, rest)
      | .error fault => .error fault := by
  rw [← bind_pure_comp, run_bind]
  rfl

@[simp]
theorem run_get (telling : Bool) (ts : List Token) :
    (get : Reader (List Token)) telling ts = .ok (ts, ts) := rfl

@[simp]
theorem run_set (rest : List Token) (telling : Bool) (ts : List Token) :
    (set rest : Reader PUnit) telling ts = .ok ((), rest) := rfl

@[simp]
theorem run_modify (g : List Token → List Token) (telling : Bool) (ts : List Token) :
    (modify g : Reader PUnit) telling ts = .ok ((), g ts) := rfl

@[simp]
theorem run_sees (word : String) (telling : Bool) (ts : List Token) :
    sees word telling ts = .ok (frontIs word ts, ts) := rfl

@[simp]
theorem run_seesAny (words : List String) (telling : Bool) (ts : List Token) :
    seesAny words telling ts = .ok (words.any (frontIs · ts), ts) := rfl

@[simp]
theorem run_frontLine (telling : Bool) (ts : List Token) :
    frontLine telling ts = .ok (lineOf ts, ts) := rfl

@[simp]
theorem run_skip (telling : Bool) (ts : List Token) : skip telling ts = .ok ((), ts.tail) := rfl

@[simp]
theorem run_accept (word : String) (telling : Bool) (ts : List Token) :
    accept word telling ts = .ok (frontIs word ts, if frontIs word ts then ts.tail else ts) := by
  unfold accept
  cases h : frontIs word ts <;> simp [run_bind, h, -bind_pure_comp]

@[simp]
theorem run_acceptAny (words : List String) (telling : Bool) (ts : List Token) :
    acceptAny words telling ts =
      .ok (words.any (frontIs · ts), if words.any (frontIs · ts) then ts.tail else ts) := by
  unfold acceptAny
  cases h : words.any (frontIs · ts) <;> simp [run_bind, h, -bind_pure_comp]

@[simp]
theorem run_read (telling : Bool) (ts : List Token) :
    (MonadReader.read : Reader Bool) telling ts = .ok (telling, ts) := rfl

theorem run_take {word : String} {ts : List Token} (h : frontIs word ts = true) (telling : Bool) :
    take word telling ts = .ok ((), ts.tail) := by
  simp [take, run_bind, h]

/-! ## Agreement -/

/-- From tokens of the kinds `ks` on, a reader with enough fuel takes those in front of `rest`. -/
def Takes (r : Nat → Reader α) (post : α → Prop) (f : Nat) (ks rest : List Kind) : Prop :=
  ∀ ⦃zs ts⦄, Spells zs ks ts → ∀ ⦃fuel⦄, f + 8 * ts.length ≤ fuel →
    ∃ a us, r fuel true ts = .ok (a, us) ∧ Spells zs rest us ∧ us.length ≤ ts.length ∧ post a

theorem Takes.of_succ {r : Nat → Reader α} {post : α → Prop} {f : Nat} {ks rest : List Kind}
    (h : ∀ ⦃zs ts⦄, Spells zs ks ts → ∀ ⦃fuel⦄, f + 8 * ts.length ≤ fuel →
      ∃ a us, r (fuel + 1) true ts = .ok (a, us) ∧ Spells zs rest us ∧
      us.length ≤ ts.length ∧ post a) :
    Takes r post (f + 1) ks rest := by
  intro zs ts hts fuel hfuel
  obtain ⟨fuel, rfl⟩ : ∃ n, fuel = n + 1 := ⟨fuel - 1, by omega⟩
  exact h hts (by omega)

/-- The expression is not starred, and it is a name or a part of an object if that is asked for. -/
def Expr.Fits (single : Bool) (e : Expr) : Prop := e.IsBare ∧ (single = true → e.isSingle = true)

/-- The reader of expressions reads what the reader of kinds reads. -/
def Agrees (r : Nat → Reader Expr) (f : Nat) (g : List Kind → Option Left) : Prop :=
  ∀ ⦃ks left⦄, g ks = some left → Takes r (Expr.Fits left.1) f ks left.2

/-- The reader of what stands behind an expression reads what the reader of kinds reads there. -/
def AgreesBehind (r : Nat → Expr → Reader Expr) (f : Nat) (g : Bool → List Kind → Option Left) :
    Prop :=
  ∀ ⦃single e⦄, Expr.Fits single e → Agrees (r · e) f (g single)

/-- The reader takes what the reader of kinds takes. -/
def Follows (r : Nat → Reader α) (post : α → Prop) (f : Nat) (g : List Kind → Option (List Kind)) :
    Prop :=
  ∀ ⦃ks rest⦄, g ks = some rest → Takes r post f ks rest

/-- Any result will do. -/
def anything (_ : α) : Prop := True

theorem fits_other (kind : String) (tight : Bool) (line : Nat) :
    Expr.Fits false (.other kind tight line) :=
  ⟨trivial, nofun⟩

theorem fits_within (e : Expr) (line : Nat) : Expr.Fits false (.within e line) := ⟨trivial, nofun⟩

theorem fits_part (kind : String) (line : Nat) : Expr.Fits true (.part kind line) :=
  ⟨trivial, fun _ => rfl⟩

namespace Phrase

theorem behind?_eq_some {s : Sign} {ks rest : List Kind} :
    behind? s ks = some rest ↔ isAt s ks = true ∧ rest = ks.tail := by
  unfold behind?
  split_ifs with h <;> simp [h, eq_comm]

end Phrase

theorem eq_cons_of_isAt {s : Sign} {ks : List Kind} (h : isAt s ks = true) :
    ∃ rest, ks = .sign s :: rest := by
  unfold isAt at h
  split at h
  · next t rest => exact ⟨rest, by rw [eq_of_beq h]⟩
  · cases h

theorem isAt_of_ne {s : Sign} {ks : List Kind} (h : ∀ rest, ks = .sign s :: rest → False) :
    isAt s ks = false := by
  refine Bool.eq_false_iff.mpr fun hat => ?_
  obtain ⟨rest, hrest⟩ := eq_cons_of_isAt hat
  exact h rest hrest

theorem isAt_of_isAt {s t : Sign} {ks : List Kind} (h : isAt s ks = true) (hne : t ≠ s) :
    isAt t ks = false := by
  obtain ⟨rest, rfl⟩ := eq_cons_of_isAt h
  simpa [isAt] using hne

theorem eq_cons_of_isKind {k : Kind} {ks : List Kind} (h : Phrase.isKind k ks = true) :
    ∃ rest, ks = k :: rest := by
  cases ks with
  | nil => simp [Phrase.isKind] at h
  | cons k' rest => exact ⟨rest, by simpa [Phrase.isKind] using h⟩

theorem isAt_of_isKind {s : Sign} {ks : List Kind} (h : Phrase.isKind .name ks = true) :
    isAt s ks = false := by
  obtain ⟨rest, rfl⟩ := eq_cons_of_isKind h
  rfl

theorem isKind_of_isAt {s : Sign} {ks : List Kind} (h : isAt s ks = true) :
    Phrase.isKind .display ks = false := by
  obtain ⟨rest, rfl⟩ := eq_cons_of_isAt h
  rfl

theorem isKind_of_isKind {k k' : Kind} {ks : List Kind} (h : Phrase.isKind k ks = true)
    (hne : k' ≠ k) :
    Phrase.isKind k' ks = false := by
  obtain ⟨rest, rfl⟩ := eq_cons_of_isKind h
  simpa [Phrase.isKind] using hne.symm

namespace Spells

variable {zs ts : List Token} {ks rest : List Kind}

/-- Behind a sign the line goes on. -/
theorem tail (h : Spells zs ks ts) {s : Sign} (hs : isAt s ks = true) :
    Spells zs ks.tail ts.tail ∧ ts.tail.length + 1 = ts.length := by
  cases h with
  | sign _ _ _ h => exact ⟨h, rfl⟩
  | _ => cases hs

theorem run_take (h : Spells zs ks ts) {s : Sign} (hs : s.opens = false) (hat : isAt s ks = true) :
    take s.text true ts = .ok ((), ts.tail) :=
  Module.run_take ((h.frontIs_sign s hs).trans hat) true

theorem run_takeName (h : Spells zs ks ts) (hname : Phrase.isKind .name ks = true) :
    ∃ word, takeName true ts = .ok (word, ts.tail) ∧ Spells zs ks.tail ts.tail ∧
      ts.tail.length + 1 = ts.length := by
  cases h with
  | name word line level hword h =>
    exact ⟨word, by simp [takeName, frontName?, hword.1], h, rfl⟩
  | _ => simp [Phrase.isKind] at hname

theorem run_takeName_match (h : Spells zs ks ts) (hat : isAt .match ks = true) :
    ∃ word, takeName true ts = .ok (word, ts.tail) ∧ Spells zs ks.tail ts.tail ∧
      ts.tail.length + 1 = ts.length := by
  cases h with
  | sign s line level h =>
    obtain rfl : Sign.match = s := by simpa [isAt] using hat
    have hword : "match" ∉ keywords := by decide
    exact ⟨"match", by simp [takeName, frontName?, Sign.lexeme, Sign.isWord, Sign.text, hword], h,
      rfl⟩
  | _ => cases hat

theorem frontIs_open (h : Spells zs ks ts) (s : Sign) (hks : Phrase.isKind .display ks = false) :
    frontIs s.text ts = isAt s ks :=
  h.frontIs_eq (.inr fun rest heq => by simp [heq, Phrase.isKind] at hks)

theorem length_pos (h : Spells zs ks ts) : 1 ≤ ts.length := by
  cases h with
  | display hdata _ =>
    obtain ⟨s, -, line, level, us, rfl⟩ := hdata.front
    simp
  | _ => simp

theorem frontName?_eq (h : Spells zs ks ts) :
    (frontName? ts).isSome = (Phrase.isKind .name ks || isAt .match ks) := by
  cases h with
  | name word line level hword h => simp [frontName?, hword.1, Phrase.isKind]
  | sign s line level h =>
    unfold Sign.lexeme
    split
    · next hs =>
      rcases Bool.or_eq_true_iff.mp hs with hs | hs
      · have hmem : s.text ∈ keywords := by simpa using hs
        have hne : s ≠ .match := fun heq => by rw [heq] at hmem; exact absurd hmem (by decide)
        simp [frontName?, Phrase.isKind, isAt, hmem, hne.symm]
      · obtain rfl := eq_of_beq hs
        have hmem : "match" ∉ keywords := by decide
        simp [frontName?, Sign.text, hmem, isAt]
    · next hs =>
      have hne : s ≠ .match := fun heq => by simp [Sign.isWord, heq] at hs
      simp [frontName?, Phrase.isKind, isAt, hne.symm]
  | display hdata _ =>
    obtain ⟨s, -, line, level, us, rfl⟩ := hdata.front
    simp [frontName?, Phrase.isKind, isAt]
  | _ => rfl

theorem tail_of_name (h : Spells zs ks ts) (hname : Phrase.isKind .name ks = true) :
    Spells zs ks.tail ts.tail ∧ ts.tail.length + 1 = ts.length := by
  obtain ⟨_, -, htail⟩ := h.run_takeName hname
  exact htail

theorem tail_of_named (h : Spells zs ks ts)
    (hname : (Phrase.isKind .name ks || isAt .match ks) = true) :
    Spells zs ks.tail ts.tail ∧ ts.tail.length + 1 = ts.length := by
  rcases Bool.or_eq_true_iff.mp hname with hname | hat
  · exact h.tail_of_name hname
  · exact h.tail hat

/-- A name with a sign behind it stands at the front. -/
theorem frontPair_eq (h : Spells zs ks ts) (s : Sign) (hs : s.opens = false) :
    frontPair s.text ts = ((Phrase.isKind .name ks || isAt .match ks) && isAt s ks.tail) := by
  rw [frontPair, h.frontName?_eq]
  cases hname : Phrase.isKind .name ks || isAt .match ks with
  | false => rfl
  | true => exact (h.tail_of_named hname).1.frontIs_sign s hs

theorem frontPair_absent (h : Spells zs ks ts) {word : String} (hword : word ∈ absentWords) :
    frontPair word ts = false := by
  rw [frontPair, h.frontName?_eq]
  cases hname : Phrase.isKind .name ks || isAt .match ks with
  | false => rfl
  | true => exact (h.tail_of_named hname).1.frontIs_absent hword

theorem startsClause_eq (h : Spells zs ks ts) : startsClause ts = isAt .for ks := by
  have hfor : Module.frontIs "for" ts = isAt .for ks := h.frontIs_sign .for rfl
  rw [startsClause, hfor, h.frontIs_absent (by decide : "async" ∈ absentWords), Bool.or_false]

theorem eq_cons (h : Spells zs ks ts) {s : Sign} (hat : isAt s ks = true) :
    ∃ line level rest, ts = ⟨s.lexeme, line, level⟩ :: rest := by
  cases h with
  | sign t line level h =>
    obtain rfl : s = t := by simpa [isAt] using hat
    exact ⟨line, level, _, rfl⟩
  | _ => cases hat

end Spells

theorem neighbour_of_not_starts {ts : List Token} (h : startsExpression ts = false) (fuel : Nat)
    (start : List Token)
    (e : Expr) : neighbour fuel start e true ts = .ok ((), ts) := by
  cases fuel with
  | zero => simp [neighbour]
  | succ fuel => simp [neighbour, run_bind, h]

theorem misusedMark_of_not_equals {zs ts : List Token} {ks : List Kind} (h : Spells zs ks ts)
    (hequals : isAt .equals ks = false) {fuel : Nat} (hfuel : 0 < fuel) (start : List Token)
    (e : Expr) :
    misusedMark fuel start e true ts = .ok ((), ts) := by
  obtain ⟨fuel, rfl⟩ : ∃ n, fuel = n + 1 := ⟨fuel - 1, by omega⟩
  have hwalrus : frontIs ":=" ts = false := h.frontIs_absent (by decide)
  have hequals' : frontIs "=" ts = isAt .equals ks := h.frontIs_sign .equals rfl
  simp [misusedMark, hwalrus, hequals', hequals]

end FlowMachine.Module
