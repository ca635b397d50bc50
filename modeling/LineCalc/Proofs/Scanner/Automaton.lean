import LineCalc.Proofs.Scanner.Progress

/-!
# The Automaton

What the state of the automaton says about the text it has read.

Every state but the error state stands for texts of one form, and the table goes
on exactly where the form allows one more character. So the state and the text
decide alike whether a character joins the text, and a scanner that looks at its
state does the same as `Progress`, which looks at its word.

## Main definitions

* `Scanner.State.Holds`: The texts that leave the automaton in a state.

## Theorems

* `Scanner.State.Holds.next_of_joins`, `Scanner.State.Holds.next_eq_error`: The
  automaton goes on exactly where the text does.
* `Scanner.State.start_next`: The characters that start a lexeme.
-/

namespace LineCalc

namespace Scanner

namespace State

/-- The texts that leave the automaton in a state, from the start state on and
    without a failure. -/
inductive Holds : State → List Char → Prop where
  | start : Holds .start []
  | inNumber {d : Char} {ds : List Char} :
      CharClass.of d = .nonZeroDigit → (∀ c ∈ ds, c.isDigit = true) → Holds .inNumber (d :: ds)
  | leadingZero : Holds .leadingZero ['0']
  | operator (op : Operator) : Holds .operator [op.char]

variable {st : State} {w : List Char} {ch : Char}

theorem Holds.start_of_nil (h : Holds st []) : st = .start := by
  cases h
  rfl

/-- Every text that has led somewhere is a lexeme, and could end there. -/
theorem Holds.accepting (h : Holds st w) (hw : w ≠ []) : st.accepting = true := by
  cases h with
  | start => exact absurd rfl hw
  | inNumber _ _ => rfl
  | leadingZero => rfl
  | operator _ => rfl

/-- A digit prolongs a number, and a zero does as well. -/
theorem inNumber_next (h : ch.isDigit = true) : next .inNumber (CharClass.of ch) = .inNumber := by
  rcases CharClass.isDigit_iff.1 h with h | h <;> rw [h] <;> rfl

theorem inNumber_next_eq_error (h : ch.isDigit = false) :
    next .inNumber (CharClass.of ch) = .error := by
  -- The table has two ways on from a number, one for each class of digits.
  have hno : ¬ (CharClass.of ch = .zero ∨ CharClass.of ch = .nonZeroDigit) :=
    fun hc => by rw [CharClass.isDigit_iff.2 hc] at h; cases h
  cases hch : CharClass.of ch with
  | nonZeroDigit => exact absurd (Or.inr hch) hno
  | zero => exact absurd (Or.inl hch) hno
  | operator => rfl
  | whitespace => rfl
  | illegal => rfl

/-- The automaton goes on exactly where the word does. -/
theorem Holds.next_of_joins (h : Holds st w) (hjoins : Progress.joins w ch = true) :
    st.next (CharClass.of ch) = .inNumber ∧ Holds .inNumber (w ++ [ch]) := by
  cases h with
  | start => cases hjoins
  -- Only a number can be prolonged, and it stays a number.
  | @inNumber d ds hd hds =>
      simp only [Progress.joins, Bool.and_eq_true] at hjoins
      refine ⟨inNumber_next hjoins.2, Holds.inNumber hd fun c hc => ?_⟩
      rcases List.mem_append.1 hc with hc | hc
      · exact hds c hc
      · rw [List.mem_singleton.1 hc]
        exact hjoins.2
  | leadingZero => cases hjoins
  | operator op => cases op <;> cases hjoins

/-- It fails where the word is complete. -/
theorem Holds.next_eq_error (h : Holds st w) (hjoins : Progress.joins w ch = false)
    (hw : w ≠ []) : st.next (CharClass.of ch) = .error := by
  cases h with
  | start => exact absurd rfl hw
  | inNumber hd _ =>
      simp only [Progress.joins, hd, decide_true, Bool.true_and] at hjoins
      exact inNumber_next_eq_error hjoins
  -- The table has no way on from these two states.
  | leadingZero => cases CharClass.of ch <;> rfl
  | operator _ => cases CharClass.of ch <;> rfl

/-- A character that is neither blank nor illegal leads to the state of the word that it starts. -/
theorem start_next (hblank : CharClass.of ch ≠ .whitespace)
    (hillegal : CharClass.of ch ≠ .illegal) :
    start.next (CharClass.of ch) ≠ .error ∧ Holds (start.next (CharClass.of ch)) [ch] := by
  cases hch : CharClass.of ch with
  | nonZeroDigit => exact ⟨(by decide), Holds.inNumber hch fun c hc => by cases hc⟩
  | zero =>
      rw [CharClass.of_eq_zero_iff.1 hch]
      exact ⟨(by decide), Holds.leadingZero⟩
  | operator =>
      rcases Operator.exists_char hch with ⟨op, rfl⟩
      exact ⟨(by decide), Holds.operator op⟩
  | whitespace => exact absurd hch hblank
  | illegal => exact absurd hch hillegal

end State

end Scanner

end LineCalc
