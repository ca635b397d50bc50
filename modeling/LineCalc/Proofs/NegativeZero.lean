import LineCalc.Proofs.Acceptance
import LineCalc.Proofs.Number.SignedZero

/-!
# No Negative Zero

The value of an expression is never the zero with a minus sign.

On the way there are such zeros. A number text may spell one, a zero may be multiplied by a
negative number, the reciprocal of an infinity is a zero with the sign of the infinity, and a
minus sign in front of a term that is zero makes one. But no term is left alone. Each is added
to what the terms after it come to, the last one to the positive zero, and a sum is the
negative zero only if both of its operands are. So it is enough to look at the second operands,
and the terms themselves can be anything.

## Theorems

* `Grammar.holds_of_sumTail`, `Grammar.holds_of_parse`: What the neutral number has, and a sum
  has from its second operand, the value of an expression has.
* `Grammar.sumTail_ne_negativeZero`: The tail of a sum is not the negative zero.
* `Grammar.result_sumTail_minus`: What a minus sign does to the term after it.
* `Grammar.result_term_number`: A number can be a term.
* `value_ne_negativeZero`: No value is the negative zero.
-/

namespace LineCalc

open SignedZero

namespace Grammar

section

variable {α : Type} [Arithmetic α] {P : α → Prop}

/-- By induction on what is ahead. Nothing has to be known of the terms, because they are only
    first operands. -/
theorem holds_of_sumTail (hzero : P Arithmetic.zero)
    (hadd : ∀ x y, P y → P (Arithmetic.add x y)) {c d : Cursor} {y : α}
    (h : (sumTail c).result = .ok (y, d)) : P y := by
  rw [sumTail_eq] at h
  rcases Reading.result_bind_eq_ok_iff.1 h with ⟨_, _, h⟩
  -- A sign and a term, another token, or the end marker.
  split at h
  · rename_i hc
    have hlt := Cursor.length_ahead_advance_lt hc
    split at h
    · rcases Reading.result_bind_eq_ok_iff.1 h with ⟨x, hx, h⟩
      rcases Reading.result_map_eq_ok_iff.1 h with ⟨z, hz, h⟩
      cases h
      have hle := length_ahead_of_term hx
      exact hadd _ _ (holds_of_sumTail hzero hadd hz)
    · cases h
  · cases h
  · cases h
    exact hzero
termination_by c.ahead.length

/-- An expression is a term that is added to a tail, so it has what the tail has. -/
theorem holds_of_parse (hzero : P Arithmetic.zero)
    (hadd : ∀ x y, P y → P (Arithmetic.add x y)) {c : Cursor} {v : α}
    (h : (parse c).result = .ok v) : P v := by
  unfold parse expr at h
  rcases Reading.result_map_eq_ok_iff.1 h with ⟨y, hy, rfl⟩
  rcases Reading.result_bind_eq_ok_iff.1 hy with ⟨_, _, hy⟩
  rcases Reading.result_bind_eq_ok_iff.1 hy with ⟨x, _, hy⟩
  rcases Reading.result_map_eq_ok_iff.1 hy with ⟨z, hz, rfl⟩
  exact hadd _ _ (holds_of_sumTail hzero hadd hz)

/-- A minus sign puts the opposite of the term after it in front of the rest of the sum. -/
theorem result_sumTail_minus {c d : Cursor} {column : Nat} {x : α}
    (hc : c.peek = .lexeme (.operator .minus column)) (hx : (term c.advance).result = .ok (x, d)) :
    (sumTail c).result =
      (sumTail d).result.map fun y => (Arithmetic.add (Arithmetic.neg x) y.1, y.2) := by
  rw [sumTail_eq, hc]
  simp only [Reading.result_bind, addend?, hx, Reading.result_map]
  rfl

/-- A number is a term of its own if no operator of a product follows it. -/
theorem result_term_number {c : Cursor} {text : String} {span : Span} {x : α}
    (hc : c.peek = .lexeme (.number text span)) (hx : Arithmetic.literal? text = some x)
    (hend : AfterTerm c.advance) :
    (term c).result = .ok (Arithmetic.mul x Arithmetic.one, c.advance) := by
  have hfactor : (factor c).result = .ok (x, c.advance) := by
    unfold factor
    simp only [Reading.result_bind, hc, hx]
    rfl
  rw [result_term, hfactor]
  change (productTail (α := α) c.advance).result.map _ = _
  rw [result_productTail_of_afterTerm hend]
  rfl

end

theorem zero_ne_negativeZero : (Arithmetic.zero : Float) ≠ negativeZero := by
  decide +kernel

/-- A sum whose second operand is not the negative zero is not the negative zero either. -/
theorem add_ne_negativeZero (x y : Float) (hy : y ≠ negativeZero) :
    Arithmetic.add x y ≠ negativeZero := by
  intro h
  exact hy (add_eq_negativeZero_iff.1 h).2

/-- The neutral number at the end of every sum keeps it from being the negative zero. -/
theorem sumTail_ne_negativeZero {c d : Cursor} {y : Float}
    (h : (sumTail c).result = .ok (y, d)) : y ≠ negativeZero :=
  holds_of_sumTail zero_ne_negativeZero add_ne_negativeZero h

/-- The value of an expression is a sum, whatever its first term is. -/
theorem parse_ne_negativeZero {c : Cursor} {v : Float} (h : (parse c).result = .ok v) :
    v ≠ negativeZero :=
  holds_of_parse zero_ne_negativeZero add_ne_negativeZero h

end Grammar

open Grammar

/-- No sequence of tokens has the negative zero as its value, whatever its number texts spell.
    No line has, and no tail of a sum. What a minus sign adds to such a tail is a negative zero,
    though, whenever the term after it is the positive one. -/
theorem value_ne_negativeZero :
    (∀ (ts : List Token) (c : Cursor) (v : Float), Cursor.ofTokens? ts = .ok c →
        (parse c).result = .ok v → v ≠ negativeZero) ∧
      (∀ (line : String) (v : Float), evaluate line = .ok (.ok v) → v ≠ negativeZero) ∧
      (∀ (c d : Cursor) (y : Float), (sumTail c).result = .ok (y, d) → y ≠ negativeZero) ∧
      ∀ (c d : Cursor) (column : Nat) (x : Float), c.peek = .lexeme (.operator .minus column) →
        (term c.advance).result = .ok (x, d) →
          (sumTail c).result = (sumTail d).result.map (fun y => (-x + y.1, y.2)) ∧
            (-x = negativeZero ↔ x = 0.0) := by
  refine ⟨fun _ _ _ _ hv => parse_ne_negativeZero hv, ?_,
    fun _ _ _ hy => sumTail_ne_negativeZero hy, ?_⟩
  · intro line v hv
    -- The value of a line comes from its tokens.
    rcases exists_parse_of_evaluate hv with ⟨l, -, -, hparse⟩
    exact parse_ne_negativeZero hparse
  · intro c d column x hc hx
    exact ⟨result_sumTail_minus hc hx, neg_eq_negativeZero_iff⟩

/-- In `-0-0` both terms are negative zeros when they are added. -/
theorem value_ne_negativeZero_signed :
    let c : Cursor := ⟨0, [.number "-0" ⟨0, 2⟩, .operator .minus 2, .number "0" ⟨3, 4⟩], 4⟩
    ∃ v : Float, Cursor.ofTokens? c.tokens = .ok c ∧ (parse c).result = .ok v ∧
      v ≠ negativeZero ∧ (term c).result = .ok (negativeZero, c.advance) ∧
        (sumTail (α := Float) c.advance).result = .ok (negativeZero + 0.0, last c) := by
  intro c
  have hc : Cursor.ofTokens? c.tokens = .ok c := rfl
  have hv : ∃ v : Float, (parse c).result = .ok v := by
    rw [result_parse]
    exact ⟨_, rfl⟩
  have hfirst : AfterTerm c.advance := by
    rintro l ⟨⟩
    exact ⟨.minus, 2, rfl, rfl⟩
  have hlast : AfterTerm (last c) := nofun
  have hsigned : (Arithmetic.literal? "-0" : Option Float) = some negativeZero := by
    decide +kernel
  have hzero : (Arithmetic.literal? "0" : Option Float) = some 0.0 := by
    decide +kernel
  -- A term that is a single number is multiplied by one, and a zero keeps its sign.
  have hnegative : Arithmetic.mul negativeZero Arithmetic.one = negativeZero := by
    decide +kernel
  have hpositive : Arithmetic.mul (0.0 : Float) Arithmetic.one = 0.0 := by
    decide +kernel
  have hleft := result_term_number (c := c) rfl hsigned hfirst
  have hright := result_term_number (c := c.advance.advance) rfl hzero hlast
  rw [hnegative] at hleft
  rw [hpositive] at hright
  rcases hv with ⟨v, hv⟩
  rcases value_ne_negativeZero with ⟨hparse, -, -, hminus⟩
  rcases hminus c.advance (last c) 2 0.0 rfl hright with ⟨hsum, hopposite⟩
  refine ⟨v, hc, hv, hparse _ c v hc hv, hleft, ?_⟩
  rw [hsum, hopposite.2 rfl, sumTail_eq]
  rfl

end LineCalc
