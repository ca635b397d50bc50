import LineCalc.Proofs.Grammar.Grouping

/-!
# Procedures

What the procedures of the grammar compute, in terms of the operands ahead.

A procedure sees one token and a rest that it hands on, so it cannot know how
the operands after it will be grouped. What can be said of each is where it stops
and what it has taken up by then: `factor` one operand, `productTail` and `term`
all operands up to the next additive operator, `sumTail` and `expr` everything.
If the sequence ahead has a misfit, the procedure fails just as `operands?` does,
or stops in front of it and leaves the failure to the next one.

The value follows from where the procedures stop. The tail of a product stops
exactly where a group ends, so a term has the value of one group, and a sum is
the total of the groups.

## Main definitions

* `Grammar.operandsAt?`, `Grammar.tailAt?`: What is spelled from a cursor on.
* `Grammar.AfterTerm`: The places where a term may end.
* `Grammar.last`: The end marker ahead of a cursor.

## Theorems

* `Grammar.factor_reads`, `Grammar.productTail_reads`, `Grammar.term_reads`:
  Where these procedures stop and what they compute.
* `Grammar.result_sumTail`, `Grammar.result_expr`, `Grammar.result_parse`: The
  result of the procedures that take up everything.
* `Grammar.parse_eq_total`: An accepted sequence has the total of its groups as
  its value.
-/

namespace LineCalc

namespace Grammar

variable {α : Type} [Arithmetic α]

/-- What is spelled from a cursor on, if an operand is expected there. -/
def operandsAt? (c : Cursor) : Except SyntaxError (α × List (Operator × α)) :=
  operands? Arithmetic.literal? c.index c.ahead

/-- What is spelled from a cursor on, if an operator is expected there. -/
def tailAt? (c : Cursor) : Except SyntaxError (List (Operator × α)) :=
  tail? Arithmetic.literal? c.index c.ahead

/-- The cursor rests on `+`, on `-` or on the end marker. -/
def AfterTerm (c : Cursor) : Prop :=
  ∀ l, c.peek = .lexeme l → ∃ op column, l = .operator op column ∧ op.isAdditive = true

/-- The end marker ahead of a cursor. -/
def last (c : Cursor) : Cursor :=
  ⟨c.index + c.ahead.length, [], c.length⟩

theorem last_advance (c : Cursor) : last c.advance = last c := by
  rcases c with ⟨i, _ | ⟨l, ls⟩, n⟩
  · rfl
  · simp only [last, Cursor.advance, List.length_cons, Cursor.mk.injEq, and_self, and_true]
    omega

/-- Behind an operator the operands go on. -/
theorem tailAt?_operator {c : Cursor} {op : Operator} {column : Nat}
    (hc : c.peek = .lexeme (.operator op column)) :
    tailAt? (α := α) c = (operandsAt? c.advance).map fun p => (op, p.1) :: p.2 := by
  rcases c with ⟨i, ls, n⟩
  rcases Cursor.peek_eq_lexeme_iff.1 hc with ⟨rest, rfl⟩
  rfl

theorem tailAt?_number {c : Cursor} {text : String} {span : Span}
    (hc : c.peek = .lexeme (.number text span)) :
    tailAt? (α := α) c = .error ⟨text, c.index⟩ := by
  rcases c with ⟨i, ls, n⟩
  rcases Cursor.peek_eq_lexeme_iff.1 hc with ⟨rest, rfl⟩
  rfl

theorem peek_eq_endOfInput_iff {c : Cursor} {n : Nat} :
    c.peek = .endOfInput n ↔ c.ahead = [] ∧ c.length = n := by
  rcases c with ⟨i, _ | ⟨l, ls⟩, m⟩
  · simp only [Cursor.peek, Token.endOfInput.injEq, true_and]
  · simp only [Cursor.peek, reduceCtorEq, false_and]

/-- A factor takes up one operand, or fails where the sequence fails. -/
theorem factor_reads (c : Cursor) :
    (∃ e, (factor (α := α) c).result = .error e ∧ operandsAt? (α := α) c = .error e) ∨
      ∃ x : α, (factor c).result = .ok (x, c.advance) ∧
        operandsAt? c = (tailAt? c.advance).map (x, ·) := by
  rcases c with ⟨i, _ | ⟨_ | ⟨op, column⟩, ls⟩, n⟩
  · exact Or.inl ⟨_, rfl, rfl⟩
  · -- A number is an operand if its text can be read.
    rename_i text span
    unfold factor operandsAt?
    cases hx : (Arithmetic.literal? text : Option α) with
    | none =>
        refine Or.inl ⟨⟨text, i⟩, ?_, ?_⟩
        · simp only [Reading.result_bind, Cursor.peek, hx, Reading.result_fail]
          rfl
        · simp only [operands?, hx]
    | some x =>
        refine Or.inr ⟨x, ?_, ?_⟩
        · simp only [Reading.result_bind, Cursor.peek, hx, Reading.result_pure]
          rfl
        · simp only [operands?, hx]
          rfl
  · exact Or.inl ⟨_, rfl, rfl⟩

theorem multiplier?_of_additive {op : Operator} (h : op.isAdditive = true) :
    (multiplier? op : Option (α → α)) = none := by
  cases op <;> first | rfl | cases h

theorem multiplier?_of_not_additive {op : Operator} (h : op.isAdditive = false) :
    (multiplier? op : Option (α → α)) = some fun x => factorValue (op, x) := by
  cases op <;> first | rfl | cases h

theorem result_productTail_of_afterTerm {c : Cursor} (h : AfterTerm c) :
    (productTail (α := α) c).result = .ok (Arithmetic.one, c) := by
  rw [productTail_eq]
  cases hc : c.peek with
  | endOfInput n => rfl
  | lexeme l =>
      rcases h l hc with ⟨op, column, rfl, hop⟩
      simp only [Reading.result_bind, multiplier?_of_additive hop]
      rfl

/-- One operator and one operand, and then the tail of the product again. -/
theorem result_productTail_operator {c : Cursor} {op : Operator} {column : Nat}
    (hc : c.peek = .lexeme (.operator op column)) (hop : op.isAdditive = false) :
    (productTail (α := α) c).result = (factor c.advance).result >>= fun x =>
      (productTail x.2).result.map fun y =>
        (Arithmetic.mul (factorValue (op, x.1)) y.1, y.2) := by
  rw [productTail_eq, hc]
  simp only [Reading.result_bind, multiplier?_of_not_additive hop, Reading.result_map]
  rfl

/-- The tail of a product ends in front of an additive operator or at the end
    marker, or it fails where the whole sequence fails. -/
theorem productTail_reads (c : Cursor) :
    (∃ e, (productTail (α := α) c).result = .error e ∧ tailAt? (α := α) c = .error e) ∨
      ∃ (ms : List (Operator × α)) (d : Cursor),
        (productTail c).result = .ok (product ms, d) ∧
        tailAt? c = (tailAt? d).map (ms ++ ·) ∧
        Multiplicative ms ∧ AfterTerm d ∧ last d = last c := by
  by_cases hstop : AfterTerm c
  · -- Nothing is taken up where a term ends.
    refine Or.inr ⟨[], c, result_productTail_of_afterTerm hstop, ?_, ?_, hstop, rfl⟩
    · cases tailAt? (α := α) c <;> rfl
    · exact fun p hp => absurd hp List.not_mem_nil
  unfold AfterTerm at hstop
  push Not at hstop
  rcases hstop with ⟨_ | ⟨op, column⟩, hc, hne⟩
  · -- A number does not follow a factor.
    refine Or.inl ⟨_, ?_, tailAt?_number hc⟩
    rw [productTail_eq, hc]
    simp only [Reading.result_bind, unexpected, hc]
    rfl
  · have hop : op.isAdditive = false := Bool.eq_false_iff.2 (hne op column rfl)
    have hlt := Cursor.length_ahead_advance_lt hc
    rw [result_productTail_operator hc hop, tailAt?_operator hc]
    -- Behind the operator stands an operand, or the sequence fails there.
    rcases factor_reads (α := α) c.advance with ⟨e, hf, ho⟩ | ⟨x, hf, ho⟩
    · exact Or.inl ⟨e, by rw [hf]; rfl, by rw [ho]; rfl⟩
    rw [hf, ho]
    -- The induction is on what is left, and an operator and an operand are gone.
    rcases productTail_reads c.advance.advance with
      ⟨e, hp, ht⟩ | ⟨ms, d, hp, ht, hms, hd, hlast⟩
    · refine Or.inl ⟨e, ?_, by rw [ht]; rfl⟩
      simp only [bind, Except.bind, hp, Except.map]
    · refine Or.inr ⟨(op, x) :: ms, d, ?_, ?_, ?_, hd, ?_⟩
      · simp only [bind, Except.bind, hp, Except.map]
        rfl
      · rw [ht]
        cases tailAt? (α := α) d <;> rfl
      · intro p hp
        rcases List.mem_cons.1 hp with rfl | hp
        · exact hop
        · exact hms p hp
      · rw [hlast, last_advance, last_advance]
termination_by c.ahead.length
decreasing_by
  rw [Cursor.ahead_advance, List.length_tail]
  omega

/-- A term multiplies its factor by the tail of its product. -/
theorem result_term (c : Cursor) :
    (term (α := α) c).result = (factor c).result >>= fun x =>
      (productTail x.2).result.map fun y => (Arithmetic.mul x.1 y.1, y.2) := by
  unfold term
  simp only [Reading.result_bind, Reading.result_map]
  rfl

/-- A term stops where the tail of its product does. -/
theorem term_reads (c : Cursor) :
    (∃ e, (term (α := α) c).result = .error e ∧ operandsAt? (α := α) c = .error e) ∨
      ∃ (x : α) (ms : List (Operator × α)) (d : Cursor),
        (term c).result = .ok (Arithmetic.mul x (product ms), d) ∧
        operandsAt? c = (tailAt? d).map (fun ops => (x, ms ++ ops)) ∧
        Multiplicative ms ∧ AfterTerm d ∧ last d = last c := by
  rw [result_term]
  -- Either step may fail, and then the sequence fails with the same error.
  rcases factor_reads (α := α) c with ⟨e, hf, ho⟩ | ⟨x, hf, ho⟩
  · exact Or.inl ⟨e, by rw [hf]; rfl, ho⟩
  rw [hf, ho]
  rcases productTail_reads (α := α) c.advance with
    ⟨e, hp, ht⟩ | ⟨ms, d, hp, ht, hms, hd, hlast⟩
  · refine Or.inl ⟨e, ?_, by rw [ht]; rfl⟩
    simp only [bind, Except.bind, hp, Except.map]
  · refine Or.inr ⟨x, ms, d, ?_, ?_, hms, hd, by rw [hlast, last_advance]⟩
    · simp only [bind, Except.bind, hp, Except.map]
    · rw [ht]
      cases tailAt? (α := α) d <;> rfl

/-- What is spelled where a term ends starts another group, or nothing at all. -/
theorem startsAdditive_of_tailAt? {c : Cursor} (hc : AfterTerm c) {ops : List (Operator × α)}
    (h : tailAt? c = .ok ops) : StartsAdditive ops := by
  -- By what the cursor rests on: there is nothing behind the end marker.
  cases hp : c.peek with
  | endOfInput n =>
      unfold tailAt? at h
      rw [(peek_eq_endOfInput_iff.1 hp).1] at h
      cases h
      exact fun p hp => by cases hp
  | lexeme l =>
      rcases hc l hp with ⟨op, column, rfl, hop⟩
      rw [tailAt?_operator hp] at h
      rcases map_eq_ok_iff.1 h with ⟨q, _, rfl⟩
      intro p hp
      rcases hp with ⟨⟩
      exact hop

/-- What the tail of a sum does to a term gives the value of a group. -/
theorem addend?_of_additive {op : Operator} (h : op.isAdditive = true) :
    ∃ f : α → α, addend? op = some f ∧ ∀ (x : α) (ms : List (Operator × α)),
      f (Arithmetic.mul x (product ms)) = groupValue ((op, x) :: ms) := by
  cases op with
  | plus => exact ⟨id, rfl, fun _ _ => rfl⟩
  | minus => exact ⟨Arithmetic.neg, rfl, fun _ _ => rfl⟩
  | asterisk => cases h
  | slash => cases h

/-- A term and the tail of the sum after it, for a tail that is known to compute
    totals. `f` is what the operator in front does to the term. -/
theorem result_term_sumTail {c : Cursor} {op : Operator} {f : α → α}
    (hf : ∀ (x : α) (ms : List (Operator × α)),
      f (Arithmetic.mul x (product ms)) = groupValue ((op, x) :: ms))
    (htail : ∀ (x : α) (d : Cursor), (term c).result = .ok (x, d) → AfterTerm d →
      (sumTail (α := α) d).result = (tailAt? d).map fun ops => (total ops, last d)) :
    ((term c).result >>= fun x =>
        (sumTail x.2).result.map fun y => (Arithmetic.add (f x.1) y.1, y.2)) =
      (operandsAt? c).map fun p => (total ((op, p.1) :: p.2), last c) := by
  rcases term_reads (α := α) c with ⟨e, ht, ho⟩ | ⟨x, ms, d, ht, ho, hms, hd, hlast⟩
  · rw [ht, ho]
    rfl
  -- What follows the term is a tail that is known to be a total.
  have hsum := htail _ d ht hd
  rw [ht, ho]
  simp only [bind, Except.bind]
  rw [hsum, hf, hlast]
  cases hops : tailAt? (α := α) d with
  | error e => rfl
  | ok ops =>
      -- The term is the first group, because the tail that follows it starts another.
      have hsplit := total_cons_append (p := (op, x)) hms (startsAdditive_of_tailAt? hd hops)
      rw [List.cons_append] at hsplit
      simp only [Except.map, hsplit]

/-- The tail of a sum takes up everything that is left and computes its total. -/
theorem result_sumTail {c : Cursor} (hc : AfterTerm c) :
    (sumTail (α := α) c).result = (tailAt? c).map fun ops => (total ops, last c) := by
  -- Where a term ends there is the end marker or a sign.
  cases hp : c.peek with
  | endOfInput n =>
      rcases c with ⟨i, ls, m⟩
      rcases peek_eq_endOfInput_iff.1 hp with ⟨rfl, rfl⟩
      rw [sumTail_eq]
      rfl
  | lexeme l =>
      rcases hc l hp with ⟨op, column, rfl, hop⟩
      rcases addend?_of_additive (α := α) hop with ⟨f, hf, hvalue⟩
      have hlt := Cursor.length_ahead_advance_lt hp
      -- A sign is ahead, and with it a term and another tail.
      have hresult : (sumTail (α := α) c).result = (term c.advance).result >>= fun x =>
          (sumTail x.2).result.map fun y => (Arithmetic.add (f x.1) y.1, y.2) := by
        rw [sumTail_eq, hp]
        simp only [Reading.result_bind, hf, Reading.result_map]
        rfl
      rw [hresult, tailAt?_operator hp, result_term_sumTail hvalue, last_advance]
      · cases operandsAt? (α := α) c.advance <;> rfl
      · -- A term leaves less than it found, so the tail after it is a shorter one.
        intro x d ht hd
        have hle := length_ahead_of_term ht
        exact result_sumTail hd
termination_by c.ahead.length

/-- An expression takes up all lexemes and computes their total, as if a plus
    sign stood in front of them. -/
theorem result_expr (c : Cursor) :
    (expr (α := α) c).result =
      (operandsAt? c).map fun p => (total ((.plus, p.1) :: p.2), last c) := by
  rw [← result_term_sumTail (f := id) (fun _ _ => rfl) fun _ _ _ hd => result_sumTail hd]
  unfold expr
  simp only [Reading.result_bind, Reading.result_map]
  rfl

/-- The parser is an expression whose cursor is thrown away. -/
theorem result_parse (c : Cursor) :
    (parse (α := α) c).result = (operandsAt? c).map fun p => total ((.plus, p.1) :: p.2) := by
  unfold parse
  rw [Reading.result_map, result_expr]
  cases operandsAt? (α := α) c <;> rfl

/-- Whatever the parser accepts is a sequence of operands and operators, and its
    value is the total of the groups between the additive operators. -/
theorem parse_eq_total {ts : List Token} {c : Cursor} {v : α}
    (hc : Cursor.ofTokens? ts = .ok c) (hv : (parse c).result = .ok v) :
    ∃ (ls : List Lexeme) (n : Nat) (x : α) (ops : List (Operator × α)),
      ts = ls.map .lexeme ++ [.endOfInput n] ∧ Spells Arithmetic.literal? ls x ops ∧
        v = total ((.plus, x) :: ops) := by
  rcases Cursor.ofTokens?_eq_ok_iff.1 hc with ⟨_, rfl⟩
  rw [result_parse] at hv
  rcases map_eq_ok_iff.1 hv with ⟨⟨x, ops⟩, hops, rfl⟩
  exact ⟨c.ahead, c.length, x, ops, rfl, operands?_eq_ok_iff.1 hops, rfl⟩

/-- `8/4-2` is `8 * (1/4 * 1) + (-(2 * 1) + 0)`. -/
theorem parse_eq_total_quotient :
    let c : Cursor := ⟨0, [.number "8" ⟨0, 1⟩, .operator .slash 1, .number "4" ⟨2, 3⟩,
      .operator .minus 3, .number "2" ⟨4, 5⟩], 5⟩
    let literal (n : Nat) : Float := Literal.toFloat ⟨false, .decimal n 0⟩
    let v : Float := literal 8 * (1.0 / literal 4 * 1.0) + (-(literal 2 * 1.0) + 0.0)
    Cursor.ofTokens? c.tokens = .ok c ∧ (parse c).result = .ok v ∧
      ∃ (ls : List Lexeme) (n : Nat) (x : Float) (ops : List (Operator × Float)),
        c.tokens = ls.map .lexeme ++ [.endOfInput n] ∧ Spells Arithmetic.literal? ls x ops ∧
          v = total ((.plus, x) :: ops) := by
  intro c literal v
  have hc : Cursor.ofTokens? c.tokens = .ok c := rfl
  have hv : (parse c).result = .ok v := by
    rw [result_parse]
    rfl
  exact ⟨hc, hv, parse_eq_total hc hv⟩

end Grammar

end LineCalc
