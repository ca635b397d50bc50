import LineCalc.Proofs.Scanner.Simulation
import Mathlib.Tactic.ByContra

/-!
# Reachable Scanners

What is true of a scanner between two characters, however it got there.

`feed_simulates` promises that a scanner gets through its input if every column
has the room it needs. Here the promise is turned around: a scanner that got
through its input has made the progress of `Progress.readAll`, whatever the
columns were. For that the step has to be known in both directions. A character
is read if the word in front of it can be completed and, should the character be
illegal, if there is a column after it. In every other case the scanner stops at
the character, and it always stops because of a sum.

## Main definitions

* `Progress.Admits`: A character can be read after the word.
* `Scanner.Reached`: A scanner that has read an input from the start.

## Theorems

* `Scanner.flush_faults`, `Scanner.push_faults`: What stops a scanner.
* `Scanner.Reached.push`, `Scanner.Reached.push_eq_error`: A character is read if
  it is admitted, and stops the scanner if it is not.
* `Scanner.Reached.finish`, `Scanner.Reached.finish_eq_error`: A line is closed
  unless an operator at the last column is pending.
* `Scanner.Reached.fault_of_push`, `Scanner.Reached.fault_of_finish`: Nothing but
  a sum stops a scanner.
* `Scanner.reached_of_feed`: A scanner that got through its input has read it.
-/

namespace LineCalc

namespace Progress

/-- A character can be read after the word: the word can be completed in front of it, and if
    it is illegal there is a column for its position. -/
def Admits (p : Progress) (ch : Char) (column : Nat) : Prop :=
  p.Settled ∧ (CharClass.of ch = .illegal → column + 1 < Checked.limit)

/-- An operator is never the first of several characters, so a word that is not settled is
    the operator alone. -/
theorem exists_of_not_settled {p : Progress} (h : ¬ p.Settled) :
    ∃ op : Operator, p.word = [op.char] ∧ Checked.limit ≤ p.start + 1 := by
  rcases Classical.not_forall.1 h with ⟨op, hop⟩
  rcases Classical.not_imp.1 hop with ⟨hword, hroom⟩
  exact ⟨op, hword, Nat.not_lt.1 hroom⟩

end Progress

namespace Scanner

variable {s s' : Scanner} {p : Progress} {input pre : List (Char × Nat)} {ch : Char}
  {column : Nat}

namespace State

/-- The text of an operator leads to one state only. -/
theorem Holds.eq_operator {st : State} {op : Operator} (h : Holds st [op.char]) :
    st = .operator := by
  generalize hw : [op.char] = w at h
  cases h with
  | start => cases hw
  | inNumber hd _ =>
      cases hw
      rw [Operator.of_char] at hd
      cases hd
  | leadingZero => cases op <;> cases hw
  | operator _ => rfl

theorem next_illegal (st : State) : st.next .illegal = .error := by
  cases st <;> rfl

end State

/-- A pending operator at the last column cannot be completed. -/
theorem flush_faults (h : Simulates s p) (hsettled : ¬ p.Settled) (stop : Nat) :
    s.flush stop = .error .additionOverflow := by
  rcases Progress.exists_of_not_settled hsettled with ⟨op, hword, hroom⟩
  have hholds := h.state
  rw [hword] at hholds
  have hstate : s.state = .operator := hholds.eq_operator
  -- The end of the span is a sum, and the flush asks for it before anything else.
  have hlexeme : s.pendingLexeme stop = .error .additionOverflow := by
    rw [pendingLexeme, if_pos hstate, h.pending, hword, String.toList_ofList]
    simp only [List.head?_cons, Option.bind_some, Operator.ofChar?_char, Lexeme.operatorAt]
    rw [h.start, Checked.succ_eq_error_iff.2 ⟨hroom, rfl⟩]
    rfl
  rw [flush, hstate, hlexeme]
  rfl

/-- A character that is not admitted stops the scanner: in front of it, when the word cannot
    be completed, or at it, when it has no position. -/
theorem push_faults (h : Simulates s p) (hchars : s.counts.chars + 1 < Checked.limit)
    (hsize : p.size + 1 < Checked.limit) (hadmits : ¬ p.Admits ch column) :
    s.push column ch = .error .additionOverflow := by
  have hcounted := counted_simulates h ch
  -- There are two reasons not to admit a character, and they stop the scanner at different places.
  by_cases hsettled : p.Settled
  · -- The word is completed, and then the character has no position.
    have hno : ¬ (CharClass.of ch = .illegal → column + 1 < Checked.limit) :=
      fun hroom => hadmits ⟨hsettled, hroom⟩
    rcases Classical.not_imp.1 hno with ⟨hillegal, hroom⟩
    have hnext : s.state.next (CharClass.of ch) = .error := by
      rw [hillegal]
      exact State.next_illegal s.state
    rcases flush_simulates hcounted (by omega) hsettled column with ⟨s₁, hs₁, -, -⟩
    rw [push_eq_anew hchars hnext, hs₁]
    change s₁.anew column ch = _
    rw [anew, reject, hillegal, Checked.succ_eq_error_iff.2 ⟨Nat.not_lt.1 hroom, rfl⟩]
    rfl
  · -- The operator is complete, because no character prolongs it, but it has no end.
    rcases Progress.exists_of_not_settled hsettled with ⟨op, hword, -⟩
    have hholds := h.state
    rw [hword] at hholds
    have hnext : s.state.next (CharClass.of ch) = .error := by
      rw [hholds.eq_operator]
      cases CharClass.of ch <;> rfl
    rw [push_eq_anew hchars hnext, flush_faults hcounted hsettled]
    rfl

/-- A scanner that has read an input from the start. -/
structure Reached (input : List (Char × Nat)) (s : Scanner) : Prop where
  simulates : s.Simulates (Progress.readAll {} input)
  chars : s.counts.chars = input.length
  length_lt : input.length < Checked.limit

theorem reached_empty : Reached [] {} :=
  ⟨simulates_empty, rfl, by decide⟩

/-- There are no more findings than characters that have been counted. -/
theorem Reached.size_le (h : s.Reached input) :
    (Progress.readAll {} input).size ≤ s.counts.chars := by
  have hle : (Progress.readAll {} input).size ≤ 0 + input.length :=
    Progress.size_readAll_le {} input
  have hchars := h.chars
  omega

/-- A character that is admitted is read. -/
theorem Reached.push (h : s.Reached input) (hlength : input.length + 1 < Checked.limit)
    (hadmits : (Progress.readAll {} input).Admits ch column) :
    ∃ s', s.push column ch = .ok s' ∧ s'.Reached (input ++ [(ch, column)]) := by
  have hsize := h.size_le
  have hchars := h.chars
  rcases push_simulates h.simulates (by omega) (by omega) hadmits.1 hadmits.2 with
    ⟨s', hs', hchars', hsim⟩
  refine ⟨s', hs', ?_, ?_, ?_⟩
  · rw [Progress.readAll_append]
    exact hsim
  · rw [hchars', hchars, List.length_append, List.length_singleton]
  · rwa [List.length_append, List.length_singleton]

/-- Any other one stops the scanner, even if that has just run out of numbers to count with. -/
theorem Reached.push_eq_error (h : s.Reached input)
    (hadmits : ¬ (Progress.readAll {} input).Admits ch column) :
    s.push column ch = .error .additionOverflow := by
  have hsize := h.size_le
  by_cases hchars : s.counts.chars + 1 < Checked.limit
  · exact push_faults h.simulates hchars (by omega) hadmits
  · exact Scanner.push_eq_error (Nat.not_lt.1 hchars)

/-- So a character that got through has been admitted. -/
theorem Reached.of_push (h : s.Reached input) (hpush : s.push column ch = .ok s') :
    (Progress.readAll {} input).Admits ch column ∧ s'.Reached (input ++ [(ch, column)]) := by
  have hadmits : (Progress.readAll {} input).Admits ch column := by
    by_contra hno
    rw [h.push_eq_error hno] at hpush
    cases hpush
  -- A character is counted before anything else is done with it.
  have hlength : input.length + 1 < Checked.limit := by
    by_contra hno
    rw [← h.chars] at hno
    rw [Scanner.push_eq_error (Nat.not_lt.1 hno)] at hpush
    cases hpush
  rcases h.push hlength hadmits with ⟨s₁, hs₁, hreached⟩
  rw [hpush] at hs₁
  cases hs₁
  exact ⟨hadmits, hreached⟩

/-- A line cannot be closed behind an operator at the last column. -/
theorem Reached.finish_eq_error (h : s.Reached input)
    (hsettled : ¬ (Progress.readAll {} input).Settled) (stop : Nat) :
    s.finish stop = .error .additionOverflow := by
  rw [finish, flush_faults h.simulates hsettled]
  rfl

/-- Behind anything else it can. -/
theorem Reached.finish (h : s.Reached input) (hsettled : (Progress.readAll {} input).Settled)
    (stop : Nat) : ∃ l, s.finish stop = .ok l ∧
      l.Lists input.length stop ((Progress.readAll {} input).finish stop) := by
  have hsize := h.size_le
  have hchars := h.chars
  have hlength := h.length_lt
  rw [← hchars]
  exact finish_lists h.simulates (by omega) hsettled stop

/-- A scanner never stops for another reason than a sum. -/
theorem Reached.fault_of_push (h : s.Reached input) {e : Fault}
    (hpush : s.push column ch = .error e) : e = .additionOverflow := by
  -- All the ways to stop that are known come from a sum, so there is no need to ask which one it
  -- was.
  have hoverflow : s.push column ch = .error .additionOverflow := by
    by_cases hadmits : (Progress.readAll {} input).Admits ch column
    · by_cases hlength : input.length + 1 < Checked.limit
      · rcases h.push hlength hadmits with ⟨s', hs', -⟩
        rw [hpush] at hs'
        cases hs'
      · rw [← h.chars] at hlength
        exact Scanner.push_eq_error (Nat.not_lt.1 hlength)
    · exact h.push_eq_error hadmits
  rw [hpush] at hoverflow
  exact Except.error.inj hoverflow

/-- The same at the end of a line. -/
theorem Reached.fault_of_finish (h : s.Reached input) {stop : Nat} {e : Fault}
    (hfinish : s.finish stop = .error e) : e = .additionOverflow := by
  by_cases hsettled : (Progress.readAll {} input).Settled
  · rcases h.finish hsettled stop with ⟨l, hl, -⟩
    rw [hfinish] at hl
    cases hl
  · rw [h.finish_eq_error hsettled] at hfinish
    exact (Except.error.inj hfinish).symm

/-- A scanner that got through its input has read all of it. -/
theorem Reached.feed (h : s.Reached pre) (hfeed : s.feed input = .ok s') :
    s'.Reached (pre ++ input) := by
  -- By induction on the input, for a scanner that has read something before.
  induction input generalizing s pre with
  | nil =>
      cases hfeed
      rw [List.append_nil]
      exact h
  | cons c input ih =>
      rcases c with ⟨ch, column⟩
      rcases feed_cons_eq_ok_iff.1 hfeed with ⟨s₁, hpush, hrest⟩
      rw [List.append_cons]
      exact ih (h.of_push hpush).2 hrest

theorem reached_of_feed (h : Scanner.feed {} input = .ok s) : s.Reached input :=
  reached_empty.feed h

end Scanner

end LineCalc
