import FlowMachine.Proofs.Module.Arguments

/-!
# Reading data in brackets

Lists, tuples and mappings whose parts are operands are operands, whatever stands in them. They are
read with fuel that is eight times the number of their tokens.
-/
namespace FlowMachine.Module

variable {us vs ts rest : List Token} {fuel line level : Nat} {e : Expr}

theorem frontIs_mark (word mark : String) (line level : Nat) (ts : List Token) :
    frontIs word (⟨.mark mark, line, level⟩ :: ts) = (mark == word) := rfl

/-- What may stand behind an operand inside of brackets. -/
def partings : List String := [",", ":", ")", "]", "\x7d"]

/-- The operand ends here. -/
def EndsHere (ts : List Token) : Prop :=
  ∃ mark ∈ partings, ∃ line level rest, ts = ⟨.mark mark, line, level⟩ :: rest

theorem endsHere_cons {mark : String} (h : mark ∈ partings) (line level : Nat) (rest : List Token) :
    EndsHere (⟨.mark mark, line, level⟩ :: rest) :=
  ⟨mark, h, line, level, rest, rfl⟩

theorem EndsHere.frontIs (h : EndsHere ts) {word : String} (hword : word ∉ partings) :
    frontIs word ts = false := by
  obtain ⟨mark, hmark, line, level, rest, rfl⟩ := h
  refine beq_eq_false_iff_ne.mpr ?_
  rintro rfl
  exact hword hmark

theorem EndsHere.startsExpression (h : EndsHere ts) : startsExpression ts = false := by
  obtain ⟨mark, hmark, line, level, rest, rfl⟩ := h
  have hall : ∀ mark ∈ partings, Module.startsExpression [⟨.mark mark, 0, 0⟩] = false := by
    decide
  exact hall mark hmark

theorem EndsHere.acceptComparison (h : EndsHere ts) :
    acceptComparison true ts = .ok (none, ts) := by
  have hnone : comparisons.any (Module.frontIs · ts) = false :=
    List.any_eq_false.mpr fun word hword => by
      rw [h.frontIs ((by decide : ∀ word ∈ comparisons, word ∉ partings) word hword)]
      exact Bool.false_ne_true
  have hin : Module.frontIs "in" ts = false := h.frontIs (by decide)
  have his : Module.frontIs "is" ts = false := h.frontIs (by decide)
  obtain ⟨mark, hmark, line, level, rest, rfl⟩ := h
  simp [Module.acceptComparison, hnone, hin, his]

/-- What an operand that is no name and has no sign in front may start with. -/
def operandFronts : List String := ["(", "[", "\x7b", "None", "True", "False"]

/-- Tokens that are read as one operand inside of brackets. -/
structure IsOperand (us : List Token) : Prop where
  front : ∀ word ∉ operandFronts, ∀ rest, frontIs word (us ++ rest) = false
  nameless : ∀ rest, frontName? (us ++ rest) = none
  pos : 0 < us.length
  reads : ∀ fuel, 8 * us.length ≤ fuel → ∀ rest, EndsHere rest →
    ∃ e, atom fuel true (us ++ rest) = .ok (e, rest) ∧ e.IsBare

theorem isOperand_string (formatted : Bool) (line level : Nat) :
    IsOperand [⟨.string false formatted, line, level⟩] where
  front _ _ _ := rfl
  nameless _ := rfl
  pos := Nat.one_pos
  reads fuel hfuel rest hrest := by
    obtain ⟨fuel, rfl⟩ : ∃ k, fuel = k + 1 := ⟨fuel - 1, by simp at hfuel; omega⟩
    obtain ⟨mark, -, line', level', behind, rfl⟩ := hrest
    exact ⟨.other (if formatted then "f-string expression" else "literal") true line,
      by simp [atom, takeStrings, lineOf], trivial⟩

theorem isOperand_constant {word : String} (h : word ∈ Expr.constants) (line level : Nat) :
    IsOperand [⟨.name word, line, level⟩] where
  front other hother _ := by
    have hall : ∀ word ∈ Expr.constants, word ∈ operandFronts := by decide
    refine beq_eq_false_iff_ne.mpr ?_
    rintro rfl
    exact hother (hall word h)
  nameless _ := by simp [frontName?, constants_subset word h]
  pos := Nat.one_pos
  reads fuel hfuel rest hrest := by
    obtain ⟨fuel, rfl⟩ : ∃ k, fuel = k + 1 := ⟨fuel - 1, by simp at hfuel; omega⟩
    exact ⟨.other word true line, by simp [atom, h], trivial⟩

theorem IsDisplay.isOperand (h : IsDisplay us) : IsOperand us where
  front word hword rest := by
    obtain ⟨s, hs, line, level, vs, rfl⟩ := h.front
    have hall : ∀ s ∈ Sign.all, s.opens = true → s.text ∈ operandFronts := by decide
    refine beq_eq_false_iff_ne.mpr ?_
    rintro rfl
    exact hword (hall s (Sign.mem_all s) hs)
  nameless rest := by
    obtain ⟨s, -, line, level, vs, rfl⟩ := h.front
    rfl
  pos := by
    obtain ⟨s, -, line, level, vs, rfl⟩ := h.front
    simp
  reads fuel hfuel rest _ := h.reads fuel hfuel rest

namespace IsOperand

/-- An operand is an expression. -/
theorem expression (h : IsOperand us) (hrest : EndsHere rest) (hfuel : 8 * us.length + 7 ≤ fuel) :
    ∃ e, Module.expression fuel true (us ++ rest) = .ok (e, rest) ∧ e.IsBare := by
  obtain ⟨fuel, rfl⟩ : ∃ k, fuel = k + 7 := ⟨fuel - 7, by omega⟩
  obtain ⟨e, hatom, hbare⟩ := h.reads fuel (by omega) rest hrest
  have hpos : 0 < fuel := by have := h.pos; omega
  refine ⟨e, ?_, hbare⟩
  have hno (words : List String) (hwords : ∀ word ∈ words, word ∉ partings) :
      words.any (frontIs · rest) = false :=
    List.any_eq_false.mpr fun word hword => by
      rw [hrest.frontIs (hwords word hword)]
      exact Bool.false_ne_true
  have htrailers : trailers fuel e true rest = .ok (e, rest) := by
    obtain ⟨fuel, rfl⟩ : ∃ k, fuel = k + 1 := ⟨fuel - 1, by omega⟩
    have h1 : frontIs "(" rest = false := hrest.frontIs (by decide)
    have h2 : frontIs "[" rest = false := hrest.frontIs (by decide)
    have h3 : frontIs "." rest = false := hrest.frontIs (by decide)
    simp [trailers, h1, h2, h3]
  have hprimary : primary (fuel + 1) true (us ++ rest) = .ok (e, rest) := by
    simp [primary, hatom, htrailers]
  have hunary : unaryOperators.any (frontIs · (us ++ rest)) = false :=
    List.any_eq_false.mpr fun word hword => by
      rw [h.front word ((by decide : ∀ word ∈ unaryOperators, word ∉ operandFronts) word hword)]
      exact Bool.false_ne_true
  have hawait : frontIs "await" (us ++ rest) = false := h.front _ (by decide) rest
  have hfactor : factor (fuel + 2) true (us ++ rest) = .ok (e, rest) := by
    simp [factor, hunary, hawait, hprimary]
  have hbinary := hno binaryOperators (by decide)
  have harithmetic : arithmetic (fuel + 3) true (us ++ rest) = .ok (e, rest) := by
    simp [arithmetic, hfactor, hbinary]
  have hcomparison : comparison (fuel + 4) true (us ++ rest) = .ok (e, rest) := by
    simp [comparison, harithmetic, hrest.acceptComparison]
  have hnot : frontIs "not" (us ++ rest) = false := h.front _ (by decide) rest
  have hinversion : inversion (fuel + 5) true (us ++ rest) = .ok (e, rest) := by
    simp [inversion, hnot, hcomparison]
  have hand := hno ["and", "or"] (by decide)
  have hdisjunction : disjunction (fuel + 6) true (us ++ rest) = .ok (e, rest) := by
    simp only [disjunction, run_bind, hinversion, run_acceptAny, hand]
    rfl
  have hlambda : frontIs "lambda" (us ++ rest) = false := h.front _ (by decide) rest
  have hif : frontIs "if" rest = false := hrest.frontIs (by decide)
  have hconditional : conditional (fuel + 6) e true rest = .ok (e, rest) := by
    rw [conditional]
    simp [hif]
  -- only the outermost level is unfolded, since the operand in it is read by `hdisjunction`
  rw [Module.expression]
  simp [hlambda, hdisjunction, hconditional, neighbour_of_not_starts hrest.startsExpression]

/-- An operand is an element. -/
theorem starNamed (h : IsOperand us) (hrest : EndsHere rest) (hfuel : 8 * us.length + 9 ≤ fuel) :
    ∃ e, Module.starNamed fuel true (us ++ rest) = .ok (e, rest) ∧ e.IsBare := by
  obtain ⟨fuel, rfl⟩ : ∃ k, fuel = k + 3 := ⟨fuel - 3, by omega⟩
  obtain ⟨e, hrun, hbare⟩ := h.expression hrest (by omega : _ ≤ fuel + 1)
  have hstar : frontIs "*" (us ++ rest) = false := h.front _ (by decide) rest
  have hwalrus : frontIs ":=" rest = false := hrest.frontIs (by decide)
  have hequals : frontIs "=" rest = false := hrest.frontIs (by decide)
  exact ⟨e, by simp [Module.starNamed, namedExpression, hstar, frontPair, h.nameless, hrun,
    misusedMark, hwalrus, hequals], hbare⟩

end IsOperand

/-! ## Lists and tuples -/

/-- Tokens of elements up to a closing bracket. -/
structure IsItems (closer : String) (us : List Token) : Prop where
  elements : ∀ fuel, 8 * us.length + 7 ≤ fuel → ∀ rest first,
    ∃ es, elements fuel closer first true (us ++ rest) = .ok (es, rest)
  list : closer = "]" → ∀ fuel, 8 * us.length + 7 ≤ fuel → ∀ rest line,
    ∃ e, listDisplay fuel line true (us ++ rest) = .ok (e, rest) ∧ e.IsBare

theorem isItems_close (closer : String) (line level : Nat) :
    IsItems closer [⟨.mark closer, line, level⟩] where
  elements fuel hfuel rest first := by
    obtain ⟨fuel, rfl⟩ : ∃ k, fuel = k + 1 := ⟨fuel - 1, by omega⟩
    exact ⟨[], by simp [elements, frontIs]⟩
  list hcloser fuel hfuel rest line' := by
    obtain ⟨fuel, rfl⟩ : ∃ k, fuel = k + 1 := ⟨fuel - 1, by omega⟩
    exact ⟨.list [] line', by simp [listDisplay, frontIs, hcloser], trivial⟩

theorem isItems_last (h : IsOperand us) {closer : String} (hcloser : closer ∈ [")", "]"])
    (line level : Nat) :
    IsItems closer (us ++ [⟨.mark closer, line, level⟩]) := by
  have hend (rest : List Token) : EndsHere (⟨.mark closer, line, level⟩ :: rest) :=
    endsHere_cons ((by decide : ∀ mark ∈ [")", "]"], mark ∈ partings) closer hcloser)
      line level rest
  have hfront (rest : List Token) : frontIs closer (us ++ ⟨.mark closer, line, level⟩ :: rest) =
      false :=
    h.front _ ((by decide : ∀ mark ∈ [")", "]"], mark ∉ operandFronts) closer hcloser) _
  have hclause (rest : List Token) : startsClause (us ++ rest) = false := by
    simp [startsClause, h.front "for" (by decide) rest, h.front "async" (by decide) rest]
  have hcomma : closer ≠ "," := by rintro rfl; revert hcloser; decide
  have hend' (rest : List Token) : startsClause (⟨.mark closer, line, level⟩ :: rest) = false := by
    simp [startsClause, (hend rest).frontIs (by decide : "for" ∉ partings),
      (hend rest).frontIs (by decide : "async" ∉ partings)]
  refine ⟨fun fuel hfuel rest first => ?_, ?_⟩
  · obtain ⟨fuel, rfl⟩ : ∃ k, fuel = k + 1 := ⟨fuel - 1, by omega⟩
    rw [List.length_append, List.length_singleton] at hfuel
    obtain ⟨e, hrun, -⟩ := h.starNamed (hend rest) (by omega : _ ≤ fuel)
    have hdone : take closer true (⟨.mark closer, line, level⟩ :: rest) = .ok ((), rest) :=
      run_take (by simp [frontIs]) true
    refine ⟨[e], ?_⟩
    rw [List.append_assoc, List.singleton_append]
    simp [elements, hfront, hclause, hrun, hdone, frontIs_mark, hcomma, hend']
  · rintro rfl fuel hfuel rest line'
    obtain ⟨fuel, rfl⟩ : ∃ k, fuel = k + 1 := ⟨fuel - 1, by omega⟩
    rw [List.length_append, List.length_singleton] at hfuel
    obtain ⟨e, hrun, -⟩ := h.starNamed (hend rest) (by omega : _ ≤ fuel)
    have hdone : take "]" true (⟨.mark "]", line, level⟩ :: rest) = .ok ((), rest) :=
      run_take rfl true
    refine ⟨.list [e] line', ?_, trivial⟩
    rw [List.append_assoc, List.singleton_append]
    simp [listDisplay, hfront, hrun, hdone, frontIs_mark, startsClause]

theorem isItems_cons (h : IsOperand us) {closer : String} (hcloser : closer ∈ [")", "]"])
    (line level : Nat)
    (hvs : IsItems closer vs) : IsItems closer (us ++ ⟨.mark ",", line, level⟩ :: vs) := by
  have hend (rest : List Token) : EndsHere (⟨.mark ",", line, level⟩ :: rest) :=
    endsHere_cons (by decide) line level rest
  have hfront (rest : List Token) : frontIs closer (us ++ rest) = false :=
    h.front _ ((by decide : ∀ mark ∈ [")", "]"], mark ∉ operandFronts) closer hcloser) _
  have hclause (rest : List Token) : startsClause (us ++ rest) = false := by
    simp [startsClause, h.front "for" (by decide) rest, h.front "async" (by decide) rest]
  refine ⟨fun fuel hfuel rest first => ?_, ?_⟩
  · obtain ⟨fuel, rfl⟩ : ∃ k, fuel = k + 1 := ⟨fuel - 1, by omega⟩
    rw [List.length_append, List.length_cons] at hfuel
    obtain ⟨e, hrun, -⟩ := h.starNamed (hend (vs ++ rest)) (by omega : _ ≤ fuel)
    obtain ⟨es, hmore⟩ := hvs.elements fuel (by omega) rest first
    refine ⟨e :: es, ?_⟩
    rw [List.append_assoc, List.cons_append]
    simp [elements, hfront, hclause, hrun, frontIs_mark, hmore]
  · rintro rfl fuel hfuel rest line'
    obtain ⟨fuel, rfl⟩ : ∃ k, fuel = k + 1 := ⟨fuel - 1, by omega⟩
    rw [List.length_append, List.length_cons] at hfuel
    obtain ⟨e, hrun, -⟩ := h.starNamed (hend (vs ++ rest)) (by omega : _ ≤ fuel)
    obtain ⟨es, hmore⟩ := hvs.elements fuel (by omega) rest (some e.line)
    refine ⟨.list (e :: es) line', ?_, trivial⟩
    rw [List.append_assoc, List.cons_append]
    simp [listDisplay, hfront, hrun, frontIs_mark, hmore]

theorem isDisplay_list (h : IsItems "]" us) (line level : Nat) :
    IsDisplay (⟨.mark "[", line, level⟩ :: us) where
  front := ⟨.openBracket, rfl, line, level, us, rfl⟩
  reads fuel hfuel rest := by
    rw [List.length_cons] at hfuel
    obtain ⟨fuel, rfl⟩ : ∃ k, fuel = k + 1 := ⟨fuel - 1, by omega⟩
    simpa [atom] using h.list rfl fuel (by omega) rest line

theorem isDisplay_emptyTuple (line level line' level' : Nat) :
    IsDisplay [⟨.mark "(", line, level⟩, ⟨.mark ")", line', level'⟩] where
  front := ⟨.openParen, rfl, line, level, _, rfl⟩
  reads fuel hfuel rest := by
    obtain ⟨fuel, rfl⟩ : ∃ k, fuel = k + 2 := ⟨fuel - 2, by simp at hfuel; omega⟩
    exact ⟨.tuple [] line, by simp [atom, group, frontIs_mark], trivial⟩

theorem isDisplay_tuple (h : IsOperand us) (hvs : IsItems ")" vs) (line level line' level' : Nat) :
    IsDisplay (⟨.mark "(", line, level⟩ :: (us ++ ⟨.mark ",", line', level'⟩ :: vs)) where
  front := ⟨.openParen, rfl, line, level, _, rfl⟩
  reads fuel hfuel rest := by
    rw [List.length_cons, List.length_append, List.length_cons] at hfuel
    obtain ⟨fuel, rfl⟩ : ∃ k, fuel = k + 2 := ⟨fuel - 2, by omega⟩
    obtain ⟨e, hrun, -⟩ := h.starNamed
      (endsHere_cons (by decide : "," ∈ partings) line' level' (vs ++ rest)) (by omega : _ ≤ fuel)
    obtain ⟨es, hmore⟩ := hvs.elements fuel (by omega) rest none
    have hclose : frontIs ")" (us ++ ⟨.mark ",", line', level'⟩ :: (vs ++ rest)) = false :=
      h.front _ (by decide) _
    have hyield : frontIs "yield" (us ++ ⟨.mark ",", line', level'⟩ :: (vs ++ rest)) = false :=
      h.front _ (by decide) _
    have hstars : frontIs "**" (us ++ ⟨.mark ",", line', level'⟩ :: (vs ++ rest)) = false :=
      h.front _ (by decide) _
    exact ⟨.tuple (e :: es) line,
      by simp [atom, group, hclose, hyield, hstars, hrun, frontIs_mark, hmore], trivial⟩

/-! ## Mappings -/

/-- Tokens of entries up to a closing brace. -/
structure IsEntries (us : List Token) : Prop where
  braces : ∀ fuel, 8 * us.length + 7 ≤ fuel → ∀ rest line,
    ∃ e, braces fuel line true (us ++ rest) = .ok (e, rest) ∧ e.IsBare
  pairs : ∀ fuel, 8 * us.length + 7 ≤ fuel → ∀ rest line level,
    pairs fuel true (⟨.mark ",", line, level⟩ :: (us ++ rest)) = .ok ((), rest)

theorem isEntries_close (line level : Nat) : IsEntries [⟨.mark "\x7d", line, level⟩] where
  braces fuel hfuel rest line' := by
    obtain ⟨fuel, rfl⟩ : ∃ k, fuel = k + 1 := ⟨fuel - 1, by omega⟩
    exact ⟨.other "dict literal" true line', by simp [braces, frontIs_mark], trivial⟩
  pairs fuel hfuel rest line' level' := by
    obtain ⟨fuel, rfl⟩ : ∃ k, fuel = k + 1 := ⟨fuel - 1, by omega⟩
    simp [pairs, frontIs_mark]

/-- An entry is read up to what follows it. -/
theorem isEntries_of_pairs (hkey : IsOperand us) (hvalue : IsOperand vs) (line level : Nat)
    {ws : List Token}
    (hws : 1 ≤ ws.length) (hend : ∀ rest, EndsHere (ws ++ rest))
    (hpairs : ∀ fuel, 8 * ws.length + 7 ≤ fuel → ∀ rest,
    Module.pairs fuel true (ws ++ rest) = .ok ((), rest)) :
    IsEntries (us ++ ⟨.mark ":", line, level⟩ :: (vs ++ ws)) := by
  have hentry (fuel : Nat) (hfuel : 8 * (us.length + vs.length + 2) ≤ fuel) (rest : List Token) :
      ∃ e, expression fuel true (us ++ ⟨.mark ":", line, level⟩ :: (vs ++ (ws ++ rest))) =
          .ok (e, ⟨.mark ":", line, level⟩ :: (vs ++ (ws ++ rest))) ∧
        pairValue fuel true (⟨.mark ":", line, level⟩ :: (vs ++ (ws ++ rest))) =
          .ok ((), ws ++ rest) := by
    obtain ⟨e, hrun, -⟩ :=
      hkey.expression (endsHere_cons (by decide : ":" ∈ partings) line level (vs ++ (ws ++ rest)))
      (by omega : _ ≤ fuel)
    refine ⟨e, hrun, ?_⟩
    obtain ⟨fuel, rfl⟩ : ∃ k, fuel = k + 1 := ⟨fuel - 1, by omega⟩
    obtain ⟨e', hrun', -⟩ := hvalue.expression (hend rest) (by omega : _ ≤ fuel)
    have h1 : frontIs "\x7d" (vs ++ (ws ++ rest)) = false := hvalue.front _ (by decide) _
    have h2 : frontIs "," (vs ++ (ws ++ rest)) = false := hvalue.front _ (by decide) _
    have h3 : frontIs "*" (vs ++ (ws ++ rest)) = false := hvalue.front _ (by decide) _
    have htake : take ":" true (⟨.mark ":", line, level⟩ :: (vs ++ (ws ++ rest))) =
      .ok ((), vs ++ (ws ++ rest)) := run_take rfl true
    simp [pairValue, htake, h1, h2, h3, hrun']
  have hsplit (rest : List Token) : us ++ ⟨.mark ":", line, level⟩ :: (vs ++ ws) ++ rest =
      us ++ ⟨.mark ":", line, level⟩ :: (vs ++ (ws ++ rest)) := by simp
  have hclause (rest : List Token) : startsClause (ws ++ rest) = false := by
    simp [startsClause, (hend rest).frontIs (by decide : "for" ∉ partings),
      (hend rest).frontIs (by decide : "async" ∉ partings)]
  constructor
  · intro fuel hfuel rest line'
    simp only [List.length_append, List.length_cons] at hfuel
    obtain ⟨fuel, rfl⟩ : ∃ k, fuel = k + 1 := ⟨fuel - 1, by omega⟩
    obtain ⟨e, hrun, hvalue'⟩ := hentry fuel (by omega) rest
    have h1 : frontIs "\x7d" (us ++ ⟨.mark ":", line, level⟩ :: (vs ++ (ws ++ rest))) = false :=
      hkey.front _ (by decide) _
    have h2 : frontIs "**" (us ++ ⟨.mark ":", line, level⟩ :: (vs ++ (ws ++ rest))) = false :=
      hkey.front _ (by decide) _
    have h3 : frontIs "*" (us ++ ⟨.mark ":", line, level⟩ :: (vs ++ (ws ++ rest))) = false :=
      hkey.front _ (by decide) _
    refine ⟨.other "dict literal" true line', ?_, trivial⟩
    rw [hsplit]
    simp [Module.braces, h1, h2, h3, frontPair, hkey.nameless, hrun, frontIs_mark, hvalue', hclause,
      hpairs fuel (by omega) rest]
  · intro fuel hfuel rest line' level'
    simp only [List.length_append, List.length_cons] at hfuel
    obtain ⟨fuel, rfl⟩ : ∃ k, fuel = k + 1 := ⟨fuel - 1, by omega⟩
    obtain ⟨e, hrun, hvalue'⟩ := hentry fuel (by omega) rest
    have h1 : frontIs "\x7d" (us ++ ⟨.mark ":", line, level⟩ :: (vs ++ (ws ++ rest))) = false :=
      hkey.front _ (by decide) _
    have h2 : frontIs "**" (us ++ ⟨.mark ":", line, level⟩ :: (vs ++ (ws ++ rest))) = false :=
      hkey.front _ (by decide) _
    rw [hsplit]
    simp [Module.pairs, h1, h2, hrun, frontIs_mark, hvalue', hpairs fuel (by omega) rest]

theorem isEntries_last (hkey : IsOperand us) (hvalue : IsOperand vs)
    (line level line' level' : Nat) :
    IsEntries (us ++ ⟨.mark ":", line, level⟩ :: (vs ++ [⟨.mark "\x7d", line', level'⟩])) := by
  refine isEntries_of_pairs hkey hvalue line level Nat.one_pos
    (fun rest => endsHere_cons (by decide) line' level' rest) fun fuel hfuel rest => ?_
  obtain ⟨fuel, rfl⟩ : ∃ k, fuel = k + 1 := ⟨fuel - 1, by omega⟩
  have htake : take "\x7d" true (⟨.mark "\x7d", line', level'⟩ :: rest) = .ok ((), rest) :=
    run_take rfl true
  simp [pairs, frontIs_mark, htake]

theorem isEntries_cons (hkey : IsOperand us) (hvalue : IsOperand vs) (line level line' level' : Nat)
    {ws : List Token}
    (hws : IsEntries ws) :
    IsEntries (us ++ ⟨.mark ":", line, level⟩ :: (vs ++ ⟨.mark ",", line', level'⟩ :: ws)) := by
  refine isEntries_of_pairs hkey hvalue line level (by simp)
    (fun rest => endsHere_cons (by decide) line' level' (ws ++ rest)) fun fuel hfuel rest => ?_
  exact hws.pairs fuel (by simp at hfuel; omega) rest line' level'

theorem isDisplay_mapping (h : IsEntries us) (line level : Nat) :
    IsDisplay (⟨.mark "\x7b", line, level⟩ :: us) where
  front := ⟨.openBrace, rfl, line, level, us, rfl⟩
  reads fuel hfuel rest := by
    rw [List.length_cons] at hfuel
    obtain ⟨fuel, rfl⟩ : ∃ k, fuel = k + 1 := ⟨fuel - 1, by omega⟩
    simpa [atom] using h.braces fuel (by omega) rest line

end FlowMachine.Module
